/-
**What one turn of the execution loop can do.**

`Happens` lists the outcomes of a turn, with what is known of the journal in each: the top frame
works on, starts a frame, starts the child of a subcall, returns, or returns to the completion of a
subcall (**`happens_step`**). What concerns the ledger holds once the two precompiles are deployed
and the top frame does not run at their addresses (`Ready`). Every invariant of a run is derived
from this list.
-/

import Mathlib
import ArcNode.Evm.SubcallSpec

namespace ArcNode.Evm

open ArcNode.Lib ArcNode.Lib.Journal ArcNode.Types

/-! ### Instructions -/

/-- An input that an instruction of a frame asks for. -/
def Issued (frame : Frame) : FrameInput → Prop
  | .call inputs => ∃ scheme target value data gasLimit bytecode,
      inputs = callInputs frame scheme target value data gasLimit bytecode ∧
        (frame.isStatic = true → scheme = .call → value = 0)
  | .create inputs =>
    inputs.caller = frame.targetAddress ∧ frame.isStatic = false ∧
      ∀ address, inputs.scheme ≠ .custom address

variable {input : FrameInput} {depth : ℕ}

theorem Issued.allowed {env : Env} {frame : Frame}
    {journal : EvmJournal} (issued : Issued frame input) (unreserved : Unreserved frame.targetAddress) :
    Allowed env (depth + 1) journal input := by
  cases input with
  | create inputs => exact ⟨issued.2.2, fun top => nomatch top⟩
  | call inputs =>
    obtain ⟨scheme, target, value, data, gasLimit, bytecode, rfl, -⟩ := issued
    cases scheme with
    | call => exact ⟨fun other => (other rfl).elim, Or.inr rfl⟩
    | callCode => exact ⟨fun _ => Or.inl rfl, Or.inl unreserved⟩
    | delegateCall => exact ⟨fun _ => Or.inr rfl, Or.inl unreserved⟩
    | staticCall => exact ⟨fun _ => Or.inr rfl, Or.inr rfl⟩

/-- What one action of the interpreter does to the journal. -/
def Acts (env : Env) (frame : Frame) (journal : EvmJournal) : Next → Prop
  | .running after => Extends journal after ∧
      (Unreserved frame.targetAddress → Silent env.hashes journal after)
  | .newFrame input after =>
    Warms journal after ∧ Issued frame input ∧ input.gasLimit ≤ frame.gasLimit
  | .returned outcome _ after => outcome.gas.limit = frame.gasLimit ∧ Follows env journal after
  | .fatal => True

section Instructions

variable {env : Env} {frame : Frame} {journal : EvmJournal}

theorem warms_readSelfdestructParties (source target : Address) (host : HostConditions)
    (journal : EvmJournal) :
    Warms journal (readSelfdestructParties env source target host journal) := by
  unfold readSelfdestructParties
  split_ifs
  · exact Warms.refl _
  · exact (warms_readBlocklist target journal).trans (warms_readBlocklist source _)

/-- An account that the instruction does not find listed is not listed, from Zero7 on. -/
theorem unblocked_of_hostBlocklisted {host : HostConditions} {address : Address}
    (unlisted : hostBlocklisted env host journal address = some false) (police : Policed env) :
    (view env.hashes journal).blocked address = false := by
  have closed : blocklistReadPolicy env = .failClosed := by
    unfold blocklistReadPolicy
    split_ifs with later now
    · rfl
    · rfl
    · exact (now police).elim
  unfold hostBlocklisted at unlisted
  rw [closed] at unlisted
  dsimp only at unlisted
  split_ifs at unlisted
  exact Option.some.inj unlisted

/-- What the checks of SELFDESTRUCT let pass is a payment that may be made; what they stop fails. -/
def Judged (env : Env) (source target : Address) (journal : EvmJournal) :
    Option (Option (InstructionResult × Output)) → Prop
  | none => True
  | some none =>
    source ≠ target ∧ Payable (Policed env) (view env.hashes journal) source target
  | some (some (result, _)) => result.isOk = false

theorem judged_checkSelfdestructAccounts (source target : Address) (host : HostConditions)
    (journal : EvmJournal) :
    Judged env source target journal (checkSelfdestructAccounts env source target host journal) := by
  unfold checkSelfdestructAccounts
  by_cases same : source = target
  · rw [if_pos same]
    rfl
  rw [if_neg same]
  cases targets : hostBlocklisted env host journal target with
  | none => trivial
  | some listed =>
    cases listed with
    | true => rfl
    | false =>
      cases sources : hostBlocklisted env host journal source with
      | none => trivial
      | some barred =>
        cases barred with
        | true => rfl
        | false =>
          dsimp only
          split_ifs with skipped dead
          · rfl
          · rfl
          · exact ⟨same, Bool.eq_false_iff.mpr dead, fun police =>
              ⟨unblocked_of_hostBlocklisted sources police,
                unblocked_of_hostBlocklisted targets police⟩⟩

theorem announce_destroyCreated (notice : Notice Address) (ledger : Ledger Address)
    (holder : Address) :
    (destroyCreated ledger holder).announce notice =
      destroyCreated (ledger.announce notice) holder := by
  have created : (ledger.announce notice).created = ledger.created := rfl
  unfold destroyCreated
  rw [created]
  split_ifs <;> rfl

theorem view_emit_destroyed {hashes : Hashes} {sender receiver holder : Address} {amount : U256}
    {ledger before : Ledger Address} {journal : EvmJournal} (seen : view hashes journal =
      destroyCreated (paying ledger (transferMove before sender receiver amount)) holder) :
    view hashes (emitMaybe (transferLog sender receiver amount) journal) =
      destroyCreated (paid ledger (transferMove before sender receiver amount)) holder := by
  unfold transferLog transferMove at *
  split_ifs at * with idle
  · exact seen
  · show view hashes (emitLog _ journal) = _
    unfold createEip7708TransferLog
    rw [view_emitTransfer, seen, announce_destroyCreated]
    rfl

/-- The journal after the sweep, with the log of its payment. -/
def sweptJournal (env : Env) (source target : Address) (journal ready : EvmJournal) : EvmJournal :=
  if (journal.cells source).balance = 0 then
    selfdestruct env.hashes source target (loadAccount target ready)
  else emitLog (createEip7708TransferLog source target (journal.cells source).balance)
    (selfdestruct env.hashes source target (loadAccount target ready))

/-- **How SELFDESTRUCT ends**: a read fails, the frame fails, or its coins are swept as they may
be. -/
theorem arcNetworkSelfdestruct_cases (env : Env) (frame : Frame) (target : Address)
    (host : HostConditions) (journal : EvmJournal) :
    arcNetworkSelfdestruct env frame target host journal = .fatal ∨
      ∃ result output left, arcNetworkSelfdestruct env frame target host journal =
        .returned ⟨result, output, Gas.bounded frame.gasLimit host.remaining host.refunded⟩ false left ∧
        (left = journal ∧ result.isOk = false ∨
          ∃ ready, left = sweptJournal env frame.targetAddress target journal ready ∧
            ((journal.cells frame.targetAddress).balance = 0 ∧ ready = journal ∨
              ready = readSelfdestructParties env frame.targetAddress target host journal ∧
                frame.targetAddress ≠ target ∧ Payable (Policed env) (view env.hashes journal)
                  frame.targetAddress target)) := by
  have judged := @judged_checkSelfdestructAccounts env frame.targetAddress target host journal
  dsimp only [arcNetworkSelfdestruct]
  by_cases static : frame.isStatic = true
  · rw [if_pos static]
    exact .inr ⟨_, _, _, rfl, .inl ⟨rfl, rfl⟩⟩
  rw [if_neg static]
  by_cases empty : (journal.cells frame.targetAddress).balance = 0
  · rw [if_pos empty]
    by_cases skipped : host.coldLoadSkipped = true
    · rw [if_pos skipped]
      exact .inr ⟨_, _, _, rfl, .inl ⟨rfl, rfl⟩⟩
    · rw [if_neg skipped]
      cases host.gasCovers <;> exact .inr ⟨_, _, _, rfl, .inr ⟨_, rfl, .inl ⟨empty, rfl⟩⟩⟩
  rw [if_neg empty]
  by_cases zero : target = 0
  · rw [if_pos zero]
    exact .inr ⟨_, _, _, rfl, .inl ⟨rfl, rfl⟩⟩
  rw [if_neg zero]
  cases checks : checkSelfdestructAccounts env frame.targetAddress target host journal with
  | none => exact .inl rfl
  | some verdict =>
    rw [checks] at judged
    cases verdict with
    | some failure => exact .inr ⟨_, _, _, rfl, .inl ⟨rfl, judged⟩⟩
    | none => cases host.gasCovers <;> exact .inr ⟨_, _, _, rfl, .inr ⟨_, rfl, .inr ⟨rfl, judged⟩⟩⟩

theorem follows_swept {source target : Address} {ready : EvmJournal} (warms : Warms journal ready)
    (checked : (journal.cells source).balance ≠ 0 →
      source ≠ target ∧ Payable (Policed env) (view env.hashes journal) source target) :
    Follows env journal (sweptJournal env source target journal ready) := by
  unfold sweptJournal
  have loads := warms.trans (warms_loadAccount target ready)
  generalize loadAccount target ready = loaded at loads ⊢
  have balance := loads.balance source
  have seen := loads.view_eq env.hashes
  have apart : source = target → (loaded.cells source).balance = 0 := by
    intro same
    rw [balance]
    by_contra something
    exact (checked something).1 same
  obtain ⟨grown, swept⟩ := @selfdestruct_view env.hashes source target loaded apart
  have steps := @steps_selfdestruct (Policed env) (view env.hashes journal) source target
    (journal.cells source).balance rfl (balance ▸ apart) fun _ something => (checked something).2
  rw [balance, seen] at swept
  have log : (if (journal.cells source).balance = 0 then
      selfdestruct env.hashes source target loaded
      else emitLog (createEip7708TransferLog source target (journal.cells source).balance)
        (selfdestruct env.hashes source target loaded)) =
      emitMaybe (transferLog source target (journal.cells source).balance)
        (selfdestruct env.hashes source target loaded) := by
    unfold transferLog
    split_ifs with empty idle idle
    · rfl
    · exact (idle (Or.inr empty)).elim
    · rcases idle with same | nothing
      · exact ((checked empty).1 same).elim
      · exact (empty nothing).elim
    · rfl
  rw [log]
  refine ⟨loads.grown.trans (grown.trans (extends_emitMaybe _ _)), ?_⟩
  show Ledger.Steps _ _ _ (view env.hashes (emitMaybe _ _))
  rw [view_emit_destroyed swept]
  exact steps

theorem acts_selfdestruct (target : Address) (host : HostConditions) (journal : EvmJournal) :
    Acts env frame journal (arcNetworkSelfdestruct env frame target host journal) := by
  rcases arcNetworkSelfdestruct_cases env frame target host journal with
    fatal | ⟨result, output, left, ends, how⟩
  · rw [fatal]
    trivial
  rw [ends]
  refine ⟨rfl, ?_⟩
  rcases how with ⟨rfl, -⟩ | ⟨ready, rfl, ⟨empty, rfl⟩ | ⟨rfl, payable⟩⟩
  · exact Follows.refl _
  · exact follows_swept (Warms.refl _) fun something => (something empty).elim
  · exact follows_swept (warms_readSelfdestructParties _ _ _ _) fun _ => payable

theorem acts_interpret (frame : Frame) (action : Action) (journal : EvmJournal) :
    Acts env frame journal (interpret env frame action journal) := by
  have stays : Follows env journal journal := Follows.refl journal
  cases action with
  | call scheme target value input gasLimit =>
    dsimp only [interpret]
    split_ifs with forbidden
    · exact ⟨rfl, stays⟩
    · refine ⟨warms_loadAccount _ _, ⟨scheme, target, value, input, _, _, rfl, ?_⟩, ?_⟩
      · intro static plain
        by_contra something
        exact forbidden ⟨static, plain, something⟩
      · cases scheme <;> exact Nat.min_le_right _ _
  | create salt value initCode gasLimit =>
    dsimp only [interpret]
    split_ifs with static
    · exact ⟨rfl, stays⟩
    · refine ⟨Warms.refl _, ⟨rfl, Bool.eq_false_iff.mpr static, ?_⟩, Nat.min_le_right _ _⟩
      intro address
      cases salt <;> exact fun custom => nomatch custom
  | selfdestruct target host => exact acts_selfdestruct target host journal
  | sstore key value =>
    dsimp only [interpret]
    split_ifs with static
    · exact ⟨rfl, stays⟩
    · exact ⟨extends_modifyAccount _ _ _, fun unreserved => silent_sstore key value unreserved journal⟩
  | log topics data =>
    dsimp only [interpret]
    split_ifs with static
    · exact ⟨rfl, stays⟩
    · exact ⟨extends_record _ _, fun _ => silent_emitLog rfl journal⟩
  | finish result output remaining refunded codeRejected => exact ⟨rfl, stays⟩
  | databaseFails => trivial

end Instructions

/-! ### The end of a frame -/

/-- A frame ended: what it did is committed, or taken back. -/
structure Closed (env : Env) (frame : Frame) (left after : EvmJournal) (result : FrameResult) :
    Prop where
  gas : result.gas.limit = frame.gasLimit
  called : frame.creates = none → ∃ outcome, result = .call outcome
  outcome : (result.isOk = true ∧ Silent env.hashes left.leave after) ∨
    (result.isOk = false ∧ after = left.revert frame.checkpoint)

theorem closed_processReturn {env : Env} {frame : Frame} {outcome : InterpreterResult}
    (gas : outcome.gas.limit = frame.gasLimit) (codeRejected : Bool) (left : EvmJournal) :
    Closed env frame left (processReturn frame outcome codeRejected left).2
      (processReturn frame outcome codeRejected left).1 := by
  unfold processReturn
  cases kind : frame.creates with
  | none =>
    refine ⟨gas, fun _ => ⟨_, rfl⟩, ?_⟩
    dsimp only
    split_ifs with succeeded
    · exact Or.inl ⟨succeeded, Silent.refl _⟩
    · exact Or.inr ⟨Bool.eq_false_iff.mpr succeeded, rfl⟩
  | some address =>
    have created : ∀ {after : EvmJournal} {result : FrameResult}, result.gas.limit = frame.gasLimit →
        ((result.isOk = true ∧ Silent env.hashes left.leave after) ∨
          (result.isOk = false ∧ after = left.revert frame.checkpoint)) →
        Closed env frame left after result :=
      fun gas outcome => ⟨gas, (fun none => nomatch kind.symm.trans none), outcome⟩
    dsimp only
    split_ifs with failed rejected
    · exact created gas (Or.inr ⟨failed, rfl⟩)
    · exact created gas (Or.inr ⟨rfl, rfl⟩)
    · exact created gas (Or.inl ⟨rfl, silent_setCode _ _ _⟩)

/-! ### One turn -/

/-- How `frame_init` ends. -/
inductive FrameMade (env : Env) (registry : SubcallRegistry) (depth : ℕ) (input : FrameInput)
    (journal : EvmJournal) : FrameInitResult × EvmJournal → Prop
  | started {frame : Frame} {after : EvmJournal}
      (made : checkedFrameInit env depth input journal = (.item frame, after)) :
      FrameMade env registry depth input journal (.item frame none, after)
  | ended {result : FrameResult} {after : EvmJournal}
      (made : checkedFrameInit env depth input journal = (.result result, after)) :
      FrameMade env registry depth input journal (.result result, after)
  | subcall {frame : Frame} {continuation : SubcallContinuation} {after : EvmJournal}
      (made : SubcallMade env registry depth input journal (.pushed frame continuation, after)) :
      FrameMade env registry depth input journal (.item frame (some continuation), after)
  | answered {result : FrameResult} {after : EvmJournal}
      (made : SubcallMade env registry depth input journal (.immediate result, after)) :
      FrameMade env registry depth input journal (.result result, after)

theorem frameMade_frameInit {env : Env} {registry : SubcallRegistry} (depth : ℕ) (input : FrameInput)
    (journal : EvmJournal) :
    FrameMade env registry depth input journal (frameInit env registry depth input journal) := by
  dsimp only [frameInit]
  cases taken : subcallInit env registry depth input journal with
  | none =>
    dsimp only
    generalize made : checkedFrameInit env depth input journal = started
    obtain ⟨outcome, after⟩ := started
    cases outcome with
    | item frame => exact .started made
    | result result => exact .ended made
  | some made =>
    have spec := subcallMade_subcallInit taken
    obtain ⟨outcome, after⟩ := made
    cases outcome with
    | pushed frame continuation => exact .subcall spec
    | immediate result => exact .answered spec

/-- What the ledger needs: the two precompiles are deployed, subcalls make plain calls, and the
frame does not run at a reserved address. -/
structure Ready (env : Env) (registry : SubcallRegistry) (journal : EvmJournal) (frame : Frame) :
    Prop where
  deployed : Deployed (view env.hashes journal)
  plain : ∀ address precompile allowed,
    registry address = some (precompile, allowed) → Plain precompile
  unreserved : Unreserved frame.targetAddress

section Turn

variable {env : Env} {registry : SubcallRegistry}

theorem Prepared.allowed {inputs child : CallInputs} {precompile : SubcallPrecompile} {left : Gas}
    {journal saved : EvmJournal} (prepared : Prepared env inputs precompile journal child left saved)
    (plain : Plain precompile) (depth : ℕ) : Allowed env depth saved (.call child) := by
  obtain ⟨init, gas, bytecode, decoded, -, -, rfl⟩ := prepared.made
  obtain ⟨scheme, -, sited, -⟩ := plain inputs init decoded
  exact ⟨fun other => (other scheme).elim, Or.inr sited⟩

theorem FrameMade.turns {journal after : EvmJournal}
    {result : FrameResult}
    (made : FrameMade env registry depth input journal (.result result, after))
    (deployed : Deployed (view env.hashes journal))
    (plain : ∀ address precompile allowed,
      registry address = some (precompile, allowed) → Plain precompile)
    (allowed : Allowed env depth journal input) : Turns env journal after := by
  cases made with
  | ended made =>
    have started := @started_checkedFrameInit env depth input journal
    rw [made] at started
    exact ⟨started.1.grown, (started.2 ⟨deployed, allowed⟩).turn⟩
  | answered made =>
    cases made with
    | rejected warms failed gas => exact warms.silent.follows.turns
    | @dispatched inputs child _ _ left before saved _ call registered allows warms prepared dispatch =>
      have loads := warms.trans prepared.warms
      obtain ⟨outcome, middle, dispatched, completed⟩ := dispatch
      have started := @started_checkedFrameInit env (depth + 1) (.call child) saved
      rw [dispatched] at started
      obtain ⟨immediate, ended⟩ := started
      have turn := (ended ⟨loads.view_eq env.hashes ▸ deployed,
        prepared.allowed (plain _ _ _ registered) (depth + 1)⟩).turn
      obtain ⟨-, ⟨same, -⟩ | ⟨-, undone⟩⟩ := completeSubcall_spec outcome _ middle
      · rw [completed] at same
        rw [show after = middle from same]
        exact loads.silent.follows.trans_turns ⟨immediate.grown, turn⟩
      · rw [completed] at undone
        have back := revert_mark immediate.grown.enter
        rw [show after = _ from undone.trans back]
        exact loads.silent.follows.turns

theorem FrameMade.grown {journal after : EvmJournal}
    {result : FrameResult}
    (made : FrameMade env registry depth input journal (.result result, after)) :
    Extends journal after ∧ result.gas.limit = input.gasLimit := by
  cases made with
  | ended made =>
    have begun := @started_checkedFrameInit env depth input journal
    rw [made] at begun
    exact ⟨begun.1.grown, begun.1.gas⟩
  | answered made =>
    cases made with
    | rejected warms failed gas => exact ⟨warms.grown, gas⟩
    | @dispatched inputs child precompile allowed left before saved _ call registered allows warms
        prepared dispatch =>
      obtain ⟨outcome, middle, dispatched, completed⟩ := dispatch
      have begun := @started_checkedFrameInit env (depth + 1) (.call child) saved
      rw [dispatched] at begun
      obtain ⟨gas, grown, -⟩ := completed_at_once begun.1 rfl completed
      rw [call]
      exact ⟨(warms.trans prepared.warms).grown.trans grown, gas⟩

/-- A frame was pushed, by `init_subcall` if there is a continuation. -/
def Entered (depth : ℕ) (input : FrameInput) (journal after : EvmJournal) (frame : Frame) :
    Option SubcallContinuation → Prop
  | none => ∃ ready, Opened depth input journal after frame ready
  | some continuation => ∃ child saved ready, Warms journal saved ∧
      continuation.checkpoint = saved.mark ∧ continuation.gasLimit = input.gasLimit ∧
      child.gasLimit ≤ input.gasLimit ∧ Opened (depth + 1) (.call child) saved after frame ready

theorem FrameMade.entered {journal after : EvmJournal}
    {frame : Frame} {continuation : Option SubcallContinuation}
    (made : FrameMade env registry depth input journal (.item frame continuation, after)) :
    Entered depth input journal after frame continuation := by
  cases made with
  | started made =>
    have begun := @started_checkedFrameInit env depth input journal
    rw [made] at begun
    obtain ⟨ready, opened, -⟩ := begun
    exact ⟨ready, opened⟩
  | subcall made =>
    cases made with
    | @dispatched inputs child precompile allowed left before saved _ call registered allows warms
        prepared dispatch =>
      obtain ⟨started, rfl⟩ := dispatch
      have begun := @started_checkedFrameInit env (depth + 1) (.call child) saved
      rw [started] at begun
      obtain ⟨ready, opened, -⟩ := begun
      refine ⟨child, saved, ready, warms.trans prepared.warms, rfl, ?_, ?_, opened⟩
      · rw [call]
        rfl
      · rw [call]
        exact prepared.child_gas.2

/-- The outcomes of one turn of the execution loop. -/
inductive Happens (env : Env) (registry : SubcallRegistry) (machine : Machine) :
    Machine × Event → Prop
  | idle (stopped : machine.ending ≠ none ∨ machine.stack = []) :
      Happens env registry machine (machine, .none)
  | fails {frame : Frame} {below : List Frame} (top : machine.stack = frame :: below) :
      Happens env registry machine
        (⟨machine.journal, frame :: below, machine.continuations, some .fatal⟩, .none)
  | works {frame : Frame} {below : List Frame} {after : EvmJournal}
      (top : machine.stack = frame :: below) (grown : Extends machine.journal after)
      (turns : Ready env registry machine.journal frame → Turns env machine.journal after) :
      Happens env registry machine (⟨after, frame :: below, machine.continuations, none⟩, .none)
  | starts {frame child : Frame} {below : List Frame} {input : FrameInput}
      {loaded after : EvmJournal} {continuation : Option SubcallContinuation}
      (top : machine.stack = frame :: below) (loads : Warms machine.journal loaded)
      (issued : Issued frame input) (gas : input.gasLimit ≤ frame.gasLimit)
      (made : FrameMade env registry (frame.depth + 1) input loaded
        (.item child continuation, after)) :
      Happens env registry machine
        (⟨after, child :: frame :: below,
          storeContinuation (frame.depth + 1) continuation machine.continuations, none⟩,
          .pushed child continuation)
  | returns {frame : Frame} {below : List Frame} {left after : EvmJournal} {result : FrameResult}
      (top : machine.stack = frame :: below) (follows : Follows env machine.journal left)
      (closed : Closed env frame left after result)
      (alone : continuationOf machine.continuations frame = none) :
      Happens env registry machine
        (deliver result after below machine.continuations, .popped frame result none result)
  | completes {frame : Frame} {below : List Frame} {left after : EvmJournal} {result : FrameResult}
      {continuation : SubcallContinuation} (top : machine.stack = frame :: below)
      (follows : Follows env machine.journal left) (closed : Closed env frame left after result)
      (owned : continuationOf machine.continuations frame = some continuation) :
      Happens env registry machine
        (deliver (completeSubcall result continuation after).1
          (completeSubcall result continuation after).2 below
          (Function.update machine.continuations (frame.depth - 1) none),
          .popped frame result (some continuation) (completeSubcall result continuation after).1)

theorem happens_newFrame {machine : Machine} {frame : Frame} {below : List Frame}
    {loaded : EvmJournal} (top : machine.stack = frame :: below)
    (loads : Warms machine.journal loaded) (issued : Issued frame input)
    (gas : input.gasLimit ≤ frame.gasLimit) :
    Happens env registry machine
      (match (frameInit env registry (frame.depth + 1) input loaded).1 with
        | .item child continuation =>
          (⟨(frameInit env registry (frame.depth + 1) input loaded).2, child :: frame :: below,
            storeContinuation (frame.depth + 1) continuation machine.continuations, none⟩,
            .pushed child continuation)
        | .result _ => (⟨(frameInit env registry (frame.depth + 1) input loaded).2, frame :: below,
            machine.continuations, none⟩, .none)) := by
  have made := @frameMade_frameInit env registry (frame.depth + 1) input loaded
  generalize frameInit env registry (frame.depth + 1) input loaded = started at made ⊢
  obtain ⟨outcome, after⟩ := started
  cases outcome with
  | item child continuation => exact .starts top loads issued gas made
  | result result =>
    refine .works top (loads.grown.trans made.grown.1) fun ready => ?_
    exact loads.silent.follows.trans_turns (made.turns (loads.view_eq env.hashes ▸ ready.deployed)
      ready.plain (issued.allowed ready.unreserved))

theorem happens_step (machine : Machine) (action : Action) :
    Happens env registry machine (step env registry machine action) := by
  unfold step
  cases ending : machine.ending with
  | some stopped => exact .idle (Or.inl fun none => nomatch ending.symm.trans none)
  | none =>
    cases stack : machine.stack with
    | nil => exact .idle (Or.inr stack)
    | cons frame below =>
      have acts := @acts_interpret env frame action machine.journal
      dsimp only
      generalize interpret env frame action machine.journal = next at acts ⊢
      cases next with
      | running journal =>
        obtain ⟨grown, silent⟩ := acts
        exact .works stack grown fun ready => (silent ready.unreserved).follows.turns
      | newFrame input journal =>
        obtain ⟨loads, issued, gas⟩ := acts
        exact happens_newFrame stack loads issued gas
      | returned outcome codeRejected journal =>
        obtain ⟨gas, follows⟩ := acts
        have closed := @closed_processReturn env frame outcome gas codeRejected journal
        dsimp only [frameReturnResult]
        cases found : continuationOf machine.continuations frame with
        | none => exact .returns stack follows closed found
        | some continuation => exact .completes stack follows closed found
      | fatal => exact .fails stack

end Turn

end ArcNode.Evm
