/-
**What starting a frame does.**

A frame that is pushed opened one checkpoint, on a journal that only grew since its input arrived
(`Opened`), and made steps of the ledger (`Pushed`); one that is over at once left the journal
grown, or, if it is a call that failed, as it was but for what is warm (`Over`), and made a turn of
the ledger (`Ended`). The checks give the facts that its payment needs and the log that tells it
(`checkTransfer_spec`), the frame itself makes the payment without the log (`makeCallFrame_spec`,
`makeCreateFrame_spec`), and with the log the payment is a step of the ledger
(**`started_checkedFrameInit`**).
-/

import Mathlib
import ArcNode.Evm.PrecompileSpec

namespace ArcNode.Evm

open ArcNode.Lib ArcNode.Lib.Journal ArcNode.Types

/-! ### Outcomes -/

variable (input : FrameInput)

/-- The creator of a contract is alive from then on. -/
def wakes (ledger : Ledger Address) : Ledger Address :=
  match input with
  | .call _ => ledger
  | .create inputs => { ledger with alive := Function.update ledger.alive inputs.caller true }

theorem Deployed.wakes {ledger : Ledger Address} (deployed : Deployed ledger) (input : FrameInput) :
    Deployed (wakes input ledger) := by
  cases input with
  | call _ => exact deployed
  | create inputs =>
    refine ⟨?_, ?_⟩
    · show Function.update ledger.alive inputs.caller true nativeCoinAuthorityAddress = true
      rw [Function.update_apply, deployed.1, ite_self]
    · show Function.update ledger.alive inputs.caller true nativeCoinControlAddress = true
      rw [Function.update_apply, deployed.2, ite_self]

/-- A frame does what its input asks for. -/
def Describes (input : FrameInput) (frame : Frame) : Prop :=
  match input with
  | .call inputs =>
    frame.creates = none ∧ frame.targetAddress = inputs.targetAddress ∧
      frame.caller = inputs.caller ∧ frame.isStatic = inputs.isStatic
  | .create inputs =>
    frame.creates = some frame.targetAddress ∧ frame.caller = inputs.caller ∧ frame.isStatic = false

/-- A frame was pushed: `ready` is the journal its checkpoint was taken of. -/
structure Opened (depth : ℕ) (input : FrameInput) (older newer : EvmJournal) (frame : Frame)
    (ready : EvmJournal) : Prop where
  depth : frame.depth = depth
  gas : frame.gasLimit = input.gasLimit
  describes : Describes input frame
  before : Extends older ready
  quiet : ∀ inputs, input = .call inputs → Warms older ready
  mark : frame.checkpoint = ready.mark
  since : Extends ready.enter newer

/-- A frame was over at once. -/
structure Over (input : FrameInput) (older newer : EvmJournal) (result : FrameResult) : Prop where
  gas : result.gas.limit = input.gasLimit
  grown : Extends older newer
  quiet : ∀ inputs, input = .call inputs → childSucceeded result = false → Warms older newer

/-- The ledger when a frame was pushed. -/
structure Pushed (env : Env) (input : FrameInput) (older ready newer : EvmJournal) (frame : Frame) :
    Prop where
  unreserved : Unreserved frame.targetAddress
  woken : view env.hashes ready = wakes input (view env.hashes older)
  steps : Ledger.Steps (2 ^ 256) (Policed env) (view env.hashes ready) (view env.hashes newer)

/-- The ledger when a frame was over at once. -/
structure Ended (env : Env) (input : FrameInput) (older newer : EvmJournal) : Prop where
  turn : Ledger.Turn (2 ^ 256) (Policed env) (view env.hashes older) (view env.hashes newer)
  created : ∀ inputs, input = .create inputs → view env.hashes newer = view env.hashes older ∨
    view env.hashes newer = wakes input (view env.hashes older)

/-- What starting a frame does to the journal, and, if it was `fit` to start, to the ledger. -/
def Started (env : Env) (depth : ℕ) (input : FrameInput) (older : EvmJournal) (fit : Prop)
    (started : ItemOrResult × EvmJournal) : Prop :=
  match started.1 with
  | .item frame => ∃ ready, Opened depth input older started.2 frame ready ∧
      (fit → Pushed env input older ready started.2 frame)
  | .result result => Over input older started.2 result ∧ (fit → Ended env input older started.2)

theorem Opened.revert {depth : ℕ} {older newer ready : EvmJournal} {frame : Frame}
    (opened : Opened depth input older newer frame ready) :
    newer.revert frame.checkpoint = ready := by
  rw [opened.mark]
  exact revert_mark opened.since

/-! ### The log of a payment -/

/-- The log of a payment; one to oneself or of nothing has none. -/
def transferLog (sender receiver : Address) (amount : U256) : Option Log :=
  if sender = receiver ∨ amount = 0 then none
  else some (createEip7708TransferLog sender receiver amount)

variable (maybeLog : Option Log)

def emitMaybe (journal : EvmJournal) : EvmJournal :=
  match maybeLog with
  | none => journal
  | some log => emitLog log journal

theorem extends_emitMaybe (journal : EvmJournal) :
    Extends journal (emitMaybe maybeLog journal) := by
  cases maybeLog with
  | none => exact Extends.refl journal
  | some log => exact extends_record _ _

section Logs

variable {hashes : Hashes} {sender receiver : Address} {amount : U256}

theorem view_emit_after {ledger before : Ledger Address} {journal : EvmJournal}
    (seen : view hashes journal = paying ledger (transferMove before sender receiver amount)) :
    view hashes (emitMaybe (transferLog sender receiver amount) journal) =
      paid ledger (transferMove before sender receiver amount) := by
  unfold transferLog transferMove at *
  split_ifs at * with idle
  · exact seen
  · show view hashes (emitLog _ journal) = _
    unfold createEip7708TransferLog
    rw [view_emitTransfer, seen]
    rfl

theorem paying_emit_before (journal : EvmJournal) :
    paying (view hashes (emitMaybe (transferLog sender receiver amount) journal))
      (transferMove (view hashes (emitMaybe (transferLog sender receiver amount) journal)) sender
        receiver amount) =
      paid (view hashes journal) (transferMove (view hashes journal) sender receiver amount) := by
  unfold transferLog transferMove
  split_ifs with idle
  · rfl
  · rfl

end Logs

/-! ### Calls -/

section Calls

variable {env : Env} {depth : ℕ} {inputs : CallInputs} {journal : EvmJournal}

def CallInputs.amount (inputs : CallInputs) : U256 := inputs.transferValue.getD 0

def callMove (inputs : CallInputs) (ledger : Ledger Address) : Option (Move Address) :=
  transferMove ledger inputs.caller inputs.targetAddress inputs.amount

theorem callTransfer_view {after : EvmJournal}
    (succeeded : callTransfer env inputs journal = .ok after) :
    Extends journal after ∧ view env.hashes after =
        paying (view env.hashes journal) (callMove inputs (view env.hashes journal)) ∧
      inputs.amount.val ≤ (view env.hashes journal).balance inputs.caller := by
  unfold callTransfer at succeeded
  unfold callMove CallInputs.amount CallInputs.transferValue
  cases given : inputs.value with
  | transfer amount =>
    rw [given] at succeeded
    exact transferLoaded_view succeeded
  | apparent amount =>
    rw [given] at succeeded
    rw [← Except.ok.inj succeeded]
    refine ⟨Extends.refl journal, ?_, Nat.zero_le _⟩
    have nothing : (none : Option U256).getD 0 = 0 := rfl
    show view env.hashes journal = paying _ (transferMove _ _ _ ((none : Option U256).getD 0))
    rw [nothing, transferMove, if_pos (Or.inr rfl)]
    rfl

theorem runPrecompile_spec {program : PrecompileM Output}
    (found : precompileAt env inputs = some program) (gasLimit : ℕ) (journal : EvmJournal) :
    Turns env journal (runPrecompile program gasLimit journal).2 ∧
      (runPrecompile program gasLimit journal).1.gas.limit = gasLimit := by
  have spec := turns_precompileAt found (journal, Gas.new gasLimit)
  unfold runPrecompile
  cases ran : program.run (journal, Gas.new gasLimit) with
  | ok final =>
    obtain ⟨output, after, gas⟩ := final
    exact ⟨spec output (after, gas) ran, rfl⟩
  | error failure =>
    cases failure with
    | revert gasUsed message | error => exact ⟨(Follows.refl journal).turns, rfl⟩

/-- The payment of a call, with its log after it, or before it if a precompile follows. -/
def Pays (env : Env) (inputs : CallInputs) (maybeLog : Option Log) (journal after : EvmJournal) : Prop :=
  if (precompileAt env inputs).isSome then
    Ledger.Turn (2 ^ 256) (Policed env) (paying (view env.hashes (emitMaybe maybeLog journal))
      (callMove inputs (view env.hashes (emitMaybe maybeLog journal)))) (view env.hashes after)
  else
    ∃ sent, view env.hashes sent =
        paying (view env.hashes journal) (callMove inputs (view env.hashes journal)) ∧
      after = emitMaybe maybeLog sent

/-- What a call does: nothing if it fails at once; otherwise the payment with its log, and then a
precompile if there is one. -/
def CallMade (env : Env) (depth : ℕ) (inputs : CallInputs) (maybeLog : Option Log)
    (journal : EvmJournal) (made : ItemOrResult × EvmJournal) : Prop :=
  match made.1 with
  | .item frame =>
    frame.depth = depth ∧ frame.gasLimit = inputs.gasLimit ∧ Describes (.call inputs) frame ∧
      precompileAt env inputs = none ∧ frame.checkpoint = journal.mark ∧
      inputs.amount.val ≤ (view env.hashes journal).balance inputs.caller ∧
      ∃ sent, Extends journal.enter sent ∧ view env.hashes sent =
        paying (view env.hashes journal) (callMove inputs (view env.hashes journal)) ∧
        made.2 = emitMaybe maybeLog sent
  | .result result =>
    result.gas.limit = inputs.gasLimit ∧ (∃ outcome, result = .call outcome) ∧
      (result.isOk = false ∧ made.2 = journal ∨ result.isOk = true ∧ Extends journal made.2 ∧
        inputs.amount.val ≤ (view env.hashes journal).balance inputs.caller ∧
        Pays env inputs maybeLog journal made.2)

/-- `revm` makes the payment without a log. -/
theorem makeCallFrame_spec (env : Env) (depth : ℕ) (inputs : CallInputs) (journal : EvmJournal) :
    CallMade env depth inputs none journal (makeCallFrame env depth inputs journal) := by
  dsimp only [makeCallFrame]
  by_cases deep : callStackLimit < depth
  · rw [if_pos deep]
    exact ⟨rfl, ⟨_, rfl⟩, Or.inl ⟨rfl, rfl⟩⟩
  · rw [if_neg deep]
    cases transferred : callTransfer env inputs journal.enter with
    | error failure =>
      have back : journal.enter.revert journal.mark = journal := revert_mark (Extends.refl _)
      refine ⟨rfl, ⟨_, rfl⟩, Or.inl ⟨?_, back⟩⟩
      cases failure <;> rfl
    | ok sent =>
      obtain ⟨grown, seen, enough⟩ := callTransfer_view transferred
      cases found : precompileAt env inputs with
      | some program =>
        obtain ⟨turns, limit⟩ := runPrecompile_spec found inputs.gasLimit sent
        have growth := grown.trans turns.grown
        refine ⟨limit, ⟨_, rfl⟩, ?_⟩
        cases succeeded : (runPrecompile program inputs.gasLimit sent).1.result.isOk with
        | false =>
          refine Or.inl ⟨succeeded, ?_⟩
          simp only [succeeded, Bool.false_eq_true, if_false]
          exact revert_mark growth
        | true =>
          refine Or.inr ⟨succeeded, ?_⟩
          simp only [succeeded, if_true]
          refine ⟨growth.leave, enough, ?_⟩
          have turn := turns.turn
          rw [seen] at turn
          rw [Pays, found, Option.isSome_some, if_pos rfl]
          exact turn
      | none =>
        dsimp only
        split_ifs with bare
        · refine ⟨rfl, ⟨_, rfl⟩, Or.inr ⟨rfl, grown.leave, enough, ?_⟩⟩
          rw [Pays, found, Option.isSome_none, if_neg Bool.false_ne_true]
          exact ⟨sent.leave, seen, rfl⟩
        · exact ⟨rfl, rfl, ⟨rfl, rfl, rfl, rfl⟩, found, rfl, enough, sent, grown, seen, rfl⟩

end Calls

/-! ### Creations -/

theorem extends_createAccount {hashes : Hashes} {caller target : Address} {value : U256}
    {journal after : EvmJournal}
    (succeeded : createAccount hashes caller target value journal = .ok after) :
    Extends journal after := by
  unfold createAccount at succeeded
  split_ifs at succeeded with taken nothing fits
  · rw [← Except.ok.inj succeeded]
    exact extends_modifyAccount _ _ _
  · rw [← Except.ok.inj succeeded]
    exact (extends_modifyAccount _ _ _).trans (extends_moveCoins _ _ _ _)

/-- What `revm` does for a creation: the nonce of the creator is bumped, and if the creation does
not fail at once the account is made and paid, without a log. -/
def CreateMade (env : Env) (depth : ℕ) (inputs : CreateInputs) (journal : EvmJournal)
    (made : ItemOrResult × EvmJournal) : Prop :=
  match made.1 with
  | .item frame =>
    frame.depth = depth ∧ frame.gasLimit = inputs.gasLimit ∧ Describes (.create inputs) frame ∧
      frame.targetAddress = inputs.createdAddress env.hashes (journal.cells inputs.caller).nonce ∧
      ∃ ready, Extends journal ready ∧
        view env.hashes ready = wakes (.create inputs) (view env.hashes journal) ∧
        frame.checkpoint = ready.mark ∧ Extends ready.enter made.2 ∧
        (Deployed (view env.hashes journal) →
          (view env.hashes ready).alive frame.targetAddress = false ∧
          inputs.value.val ≤ (view env.hashes ready).balance inputs.caller ∧
          view env.hashes made.2 = paying (bear (view env.hashes ready) frame.targetAddress)
            (transferMove (view env.hashes ready) inputs.caller frame.targetAddress inputs.value))
  | .result result =>
    result.gas.limit = inputs.gasLimit ∧ (∃ outcome, result = .create outcome none) ∧
      Extends journal made.2 ∧ (view env.hashes made.2 = view env.hashes journal ∨
        view env.hashes made.2 = wakes (.create inputs) (view env.hashes journal))

theorem makeCreateFrame_spec (env : Env) (depth : ℕ) (inputs : CreateInputs) (journal : EvmJournal) :
    CreateMade env depth inputs journal (makeCreateFrame env depth inputs journal) := by
  have loads := warms_loadAccount inputs.caller journal
  dsimp only [makeCreateFrame]
  by_cases deep : callStackLimit < depth
  · rw [if_pos deep]
    exact ⟨rfl, ⟨_, rfl⟩, Extends.refl journal, Or.inl rfl⟩
  rw [if_neg deep]
  by_cases poor : (journal.cells inputs.caller).balance < inputs.value
  · rw [if_pos poor]
    exact ⟨rfl, ⟨_, rfl⟩, loads.grown, Or.inl (loads.view_eq env.hashes)⟩
  rw [if_neg poor]
  by_cases last : (journal.cells inputs.caller).nonce = 2 ^ 64 - 1
  · rw [if_pos last]
    exact ⟨rfl, ⟨_, rfl⟩, loads.grown, Or.inl (loads.view_eq env.hashes)⟩
  rw [if_neg last]
  generalize named : inputs.createdAddress env.hashes (journal.cells inputs.caller).nonce = address
  have warms := warms_loadAccount address (bumpNonce inputs.caller (loadAccount inputs.caller journal))
  have grown := loads.grown.trans ((extends_modifyAccount _ _ _).trans warms.grown)
  have woken : view env.hashes (loadAccount address
      (bumpNonce inputs.caller (loadAccount inputs.caller journal))) =
      wakes (.create inputs) (view env.hashes journal) := by
    rw [warms.view_eq, view_bumpNonce, loads.view_eq]
    rfl
  clear warms
  generalize loadAccount address (bumpNonce inputs.caller (loadAccount inputs.caller journal)) =
    ready at *
  cases made : createAccount env.hashes inputs.caller address inputs.value ready.enter with
  | error failure =>
    have back : ready.enter.revert ready.mark = ready := revert_mark (Extends.refl _)
    rw [back]
    exact ⟨rfl, ⟨_, rfl⟩, grown, Or.inr woken⟩
  | ok after =>
    refine ⟨rfl, rfl, ⟨rfl, rfl, rfl⟩, named.symm, ready, grown, woken, rfl, extends_createAccount made,
      fun deployed => ?_⟩
    have stillDeployed : Deployed (view env.hashes ready) := woken ▸ deployed.wakes _
    have awake : (view env.hashes ready).alive inputs.caller = true := by
      rw [woken]
      exact Function.update_self _ _ _
    have enough : inputs.value.val ≤ (view env.hashes ready).balance inputs.caller := by
      rw [woken]
      exact Fin.le_def.mp (not_lt.mp poor)
    obtain ⟨-, fresh, -, seen⟩ :=
      @createAccount_view env.hashes inputs.caller address inputs.value ready.enter after
        stillDeployed awake enough made
    exact ⟨fresh, enough, seen⟩

/-! ### Frames with their logs -/

variable {inputs : CallInputs} {told : Option Log}

section Logged

variable {env : Env} {depth : ℕ} {journal : EvmJournal}

theorem unreserved_of_no_precompile (none : precompileAt env inputs = none) :
    Unreserved inputs.bytecodeAddress := by
  unfold precompileAt at none
  split_ifs at none with authority control
  exact ⟨authority, control⟩

theorem initFrame_call (inputs : CallInputs) (journal : EvmJournal) :
    initFrame env depth (.call inputs) journal = makeCallFrame env depth inputs journal := rfl

theorem initFrame_create (inputs : CreateInputs) (journal : EvmJournal) :
    initFrame env depth (.create inputs) journal = makeCreateFrame env depth inputs journal := rfl

theorem initPrecompile_some (log : Log) (journal : EvmJournal) :
    initPrecompileFrameWithTransferLog env depth input (some log) journal =
      ((initFrame env depth input (emitLog log journal.enter)).1,
        if shouldEmitTransferLog (initFrame env depth input (emitLog log journal.enter)).1 then
          (initFrame env depth input (emitLog log journal.enter)).2.leave
        else (initFrame env depth input (emitLog log journal.enter)).2.revert journal.mark) := rfl

/-- A frame whose log comes after it, if it was pushed or succeeded. -/
theorem initDeferred_eq (journal : EvmJournal) :
    initDeferredFrameWithTransferLog env depth input maybeLog journal =
      ((initFrame env depth input journal).1,
        if shouldEmitTransferLog (initFrame env depth input journal).1 then
          emitMaybe maybeLog (initFrame env depth input journal).2
        else (initFrame env depth input journal).2) := by
  unfold initDeferredFrameWithTransferLog
  cases maybeLog with
  | none => simp only [emitMaybe, ite_self]
  | some log => rfl

theorem Pays.turn {after : EvmJournal} (pays : Pays env inputs
      (transferLog inputs.caller inputs.targetAddress inputs.amount) journal after) :
    Ledger.Turn (2 ^ 256) (Policed env)
      (paid (view env.hashes journal) (callMove inputs (view env.hashes journal)))
      (view env.hashes after) := by
  unfold Pays at pays
  split_ifs at pays
  · exact @paying_emit_before env.hashes inputs.caller inputs.targetAddress inputs.amount journal ▸ pays
  · obtain ⟨sent, seen, rfl⟩ := pays
    rw [view_emit_after seen]
    exact Ledger.Steps.turn .refl

theorem initFrameWithLog_call (env : Env) (depth : ℕ) (inputs : CallInputs) (maybeLog : Option Log)
    (journal : EvmJournal) : CallMade env depth inputs maybeLog journal
      (initFrameWithLog env depth (.call inputs) maybeLog journal) := by
  have called : isPrecompileCall env (.call inputs) = (precompileAt env inputs).isSome := rfl
  unfold initFrameWithLog
  rw [called]
  cases found : precompileAt env inputs with
  | some program =>
    rw [Option.isSome_some, if_pos rfl]
    cases maybeLog with
    | none => exact makeCallFrame_spec env depth inputs journal
    | some log =>
      -- the log comes first, under a checkpoint of its own
      have spec := makeCallFrame_spec env depth inputs (emitLog log journal.enter)
      rw [initPrecompile_some, initFrame_call]
      generalize makeCallFrame env depth inputs (emitLog log journal.enter) = made at spec ⊢
      obtain ⟨outcome, after⟩ := made
      cases outcome with
      | item frame => cases found.symm.trans spec.2.2.2.1
      | result result =>
        obtain ⟨gas, ⟨called, rfl⟩, ended⟩ := spec
        refine ⟨gas, ⟨called, rfl⟩, ?_⟩
        rcases ended with ⟨failed, same⟩ | ⟨succeeded, grown, enough, pays⟩
        · have emits : shouldEmitTransferLog (.result (.call called)) = false := failed
          rw [emits, if_neg Bool.false_ne_true, show after = _ from same]
          exact .inl ⟨failed, revert_mark (extends_record _ _)⟩
        · have emits : shouldEmitTransferLog (.result (.call called)) = true := succeeded
          rw [emits, if_pos rfl]
          refine .inr ⟨succeeded, ((extends_record _ _).trans grown).leave, enough, ?_⟩
          rw [Pays, found, Option.isSome_some, if_pos rfl] at pays ⊢
          exact pays
  | none =>
    have spec := makeCallFrame_spec env depth inputs journal
    rw [Option.isSome_none, if_neg Bool.false_ne_true, initDeferred_eq, initFrame_call]
    generalize makeCallFrame env depth inputs journal = made at spec ⊢
    obtain ⟨outcome, after⟩ := made
    cases outcome with
    | item frame =>
      obtain ⟨deep, gas, describes, -, mark, enough, sent, grown, seen, same⟩ := spec
      obtain rfl : after = sent := same
      exact ⟨deep, gas, describes, found, mark, enough, after, grown, seen, rfl⟩
    | result result =>
      obtain ⟨gas, ⟨called, rfl⟩, ended⟩ := spec
      refine ⟨gas, ⟨called, rfl⟩, ?_⟩
      rcases ended with ⟨failed, same⟩ | ⟨succeeded, grown, enough, pays⟩
      · have emits : shouldEmitTransferLog (.result (.call called)) = false := failed
        rw [emits, if_neg Bool.false_ne_true]
        exact .inl ⟨failed, same⟩
      · have emits : shouldEmitTransferLog (.result (.call called)) = true := succeeded
        rw [emits, if_pos rfl]
        refine .inr ⟨succeeded, grown.trans (extends_emitMaybe _ _), enough, ?_⟩
        rw [Pays, found, Option.isSome_none, if_neg Bool.false_ne_true] at pays ⊢
        obtain ⟨sent, seen, same⟩ := pays
        obtain rfl : after = sent := same
        exact ⟨after, seen, rfl⟩

theorem started_call (inputs : CallInputs) (maybeLog : Option Log) (journal : EvmJournal) :
    Started env depth (.call inputs) journal
      (maybeLog = transferLog inputs.caller inputs.targetAddress inputs.amount ∧
        (Unreserved inputs.targetAddress ∨ inputs.targetAddress = inputs.bytecodeAddress) ∧
        (inputs.caller ≠ inputs.targetAddress → inputs.amount ≠ 0 → Payable (Policed env)
          (view env.hashes journal) inputs.caller inputs.targetAddress))
      (initFrameWithLog env depth (.call inputs) maybeLog journal) := by
  have spec := initFrameWithLog_call env depth inputs maybeLog journal
  generalize initFrameWithLog env depth (.call inputs) maybeLog journal = started at spec ⊢
  obtain ⟨outcome, after⟩ := started
  cases outcome with
  | item frame =>
    obtain ⟨deep, gas, describes, plain, mark, enough, sent, grown, seen, same⟩ := spec
    obtain rfl : after = _ := same
    refine ⟨journal, ⟨deep, gas, describes, Extends.refl _, fun _ _ => Warms.refl _, mark,
      grown.trans (extends_emitMaybe _ _)⟩, ?_⟩
    rintro ⟨rfl, sited, checked⟩
    refine ⟨?_, rfl, ?_⟩
    · rw [describes.2.1]
      rcases sited with unreserved | same
      · exact unreserved
      · rw [same]
        exact unreserved_of_no_precompile plain
    · show Ledger.Steps _ _ _ (view env.hashes (emitMaybe _ sent))
      rw [view_emit_after seen]
      exact step_transfer enough checked
  | result result =>
    obtain ⟨gas, ⟨called, rfl⟩, ⟨failed, same⟩ | ⟨succeeded, grown, enough, pays⟩⟩ := spec
    · obtain rfl : after = journal := same
      exact ⟨⟨gas, Extends.refl _, fun _ _ _ => Warms.refl _⟩,
        fun _ => ⟨(Follows.refl _).turns.turn, fun _ create => nomatch create⟩⟩
    · refine ⟨⟨gas, grown, fun _ _ failed => nomatch succeeded.symm.trans failed⟩, ?_⟩
      rintro ⟨rfl, -, checked⟩
      exact ⟨(step_transfer enough checked).trans_turn pays.turn, fun _ create => nomatch create⟩

theorem started_create (inputs : CreateInputs) (maybeLog : Option Log) (journal : EvmJournal) :
    Started env depth (.create inputs) journal
      (Deployed (view env.hashes journal) ∧ maybeLog = transferLog inputs.caller
          (inputs.createdAddress env.hashes (journal.cells inputs.caller).nonce) inputs.value ∧
        (inputs.value ≠ 0 → Payable (Policed env) (view env.hashes journal) inputs.caller
          (inputs.createdAddress env.hashes (journal.cells inputs.caller).nonce)))
      (initFrameWithLog env depth (.create inputs) maybeLog journal) := by
  have spec := makeCreateFrame_spec env depth inputs journal
  show Started env depth (.create inputs) journal _
    (initDeferredFrameWithTransferLog env depth (.create inputs) maybeLog journal)
  rw [initDeferred_eq, initFrame_create]
  generalize makeCreateFrame env depth inputs journal = started at spec ⊢
  obtain ⟨outcome, after⟩ := started
  cases outcome with
  | item frame =>
    obtain ⟨deep, gas, describes, target, ready, grown, woken, mark, growth, made⟩ := spec
    refine ⟨ready, ⟨deep, gas, describes, grown, (fun _ call => nomatch call), mark,
      growth.trans (extends_emitMaybe _ _)⟩, ?_⟩
    rw [← target]
    rintro ⟨deployed, rfl, checked⟩
    obtain ⟨fresh, enough, seen⟩ := made deployed
    refine ⟨?_, woken, ?_⟩
    · rw [woken] at fresh
      exact (deployed.wakes _).unreserved fresh
    · show Ledger.Steps _ _ _ (view env.hashes (emitMaybe _ after))
      rw [view_emit_after seen]
      refine steps_create fresh enough fun _ something => ?_
      rw [woken]
      obtain ⟨standing, unblocked⟩ := checked something
      exact ⟨standing, unblocked⟩
  | result result =>
    obtain ⟨gas, ⟨called, rfl⟩, grown, seen⟩ := spec
    have emits : shouldEmitTransferLog (.result (.create called none)) = false :=
      Bool.and_false _
    rw [emits, if_neg Bool.false_ne_true]
    refine ⟨⟨gas, grown, fun _ call => nomatch call⟩, fun _ => ⟨?_, fun _ _ => seen⟩⟩
    rcases seen with same | woken
    · exact Ledger.Steps.turn (same ▸ .refl)
    · refine Ledger.Steps.turn (.single ?_)
      show Ledger.Step _ _ _ (view env.hashes after)
      rw [show view env.hashes after = _ from woken]
      exact Ledger.Step.awake inputs.caller

end Logged

/-! ### The checks before a frame -/

/-- The log that a verdict allows, or none if it refuses the frame. -/
def verdictLog : BeforeFrameInitResult → Option (Option Log)
  | .log entry => some (some entry)
  | .checked => some none
  | .reverted _ => none
  | .none => some none

section Checks

variable {env : Env} {journal : EvmJournal} {input : FrameInput}

theorem warms_readBlocklist (address : Address) (journal : EvmJournal) :
    Warms journal (readBlocklist env address journal) :=
  warms_sload _ _ journal

/-- A frame is refused with a revert and all its gas. -/
def Refuses (input : FrameInput) (verdict : BeforeFrameInitResult) : Prop :=
  ∀ result, verdict = .reverted result → result.isOk = false ∧ result.gas.limit = input.gasLimit

theorem refuses_createFrameResult (message : String) :
    Refuses input (.reverted (createFrameResult input message)) := by
  intro result same
  cases same
  cases input <;> exact ⟨rfl, rfl⟩

theorem checkBlocklistAndCreateLog_spec (sender receiver : Address) {amount : U256}
    (something : amount ≠ 0) (input : FrameInput) (journal : EvmJournal) :
    let verdict := checkBlocklistAndCreateLog env sender receiver amount input journal
    Warms journal verdict.2 ∧ Refuses input verdict.1 ∧
      ∀ told, verdictLog verdict.1 = some told → told = transferLog sender receiver amount ∧
        (view env.hashes journal).blocked sender = false ∧
        (view env.hashes journal).blocked receiver = false ∧
        (view env.hashes journal).destroyed receiver = false := by
  have first : Warms journal (readBlocklist env sender journal) := warms_readBlocklist _ _
  have second : Warms journal (readBlocklist env receiver (readBlocklist env sender journal)) :=
    first.trans (warms_readBlocklist _ _)
  dsimp only [checkBlocklistAndCreateLog]
  by_cases zero : sender = 0 ∨ receiver = 0
  · rw [if_pos zero]
    exact ⟨Warms.refl _, refuses_createFrameResult _, fun _ refused => nomatch refused⟩
  rw [if_neg zero]
  cases sends : blocklisted env.hashes journal sender with
  | true =>
    rw [if_pos rfl]
    exact ⟨first, refuses_createFrameResult _, fun _ refused => nomatch refused⟩
  | false =>
    rw [if_neg Bool.false_ne_true]
    cases receives : blocklisted env.hashes journal receiver with
    | true =>
      rw [if_pos rfl]
      exact ⟨second, refuses_createFrameResult _, fun _ refused => nomatch refused⟩
    | false =>
      rw [if_neg Bool.false_ne_true]
      have probed : Warms journal (if env.flags.isActive .zero7 then
          readBlocklist env receiver (readBlocklist env sender journal)
          else loadAccount receiver (readBlocklist env receiver (readBlocklist env sender journal))) := by
        split_ifs
        · exact second
        · exact second.trans (warms_loadAccount receiver _)
      cases dead : (journal.cells receiver).destroyed with
      | true =>
        rw [if_pos rfl]
        exact ⟨probed, refuses_createFrameResult _, fun _ refused => nomatch refused⟩
      | false =>
        rw [if_neg Bool.false_ne_true]
        by_cases same : sender = receiver
        · rw [if_pos same]
          refine ⟨probed, (fun _ refused => nomatch refused), ?_⟩
          intro told verdict
          rw [← Option.some.inj verdict, transferLog, if_pos (Or.inl same)]
          exact ⟨rfl, sends, receives, dead⟩
        · rw [if_neg same]
          refine ⟨probed, (fun _ refused => nomatch refused), ?_⟩
          intro told verdict
          rw [← Option.some.inj verdict, transferLog, if_neg (not_or.mpr ⟨same, something⟩)]
          exact ⟨rfl, sends, receives, dead⟩

theorem checkTransfer_spec (sender receiver : Address) (amount : U256) (input : FrameInput)
    (journal : EvmJournal) :
    let verdict := checkTransfer env (some (sender, receiver, amount)) input journal
    Warms journal verdict.2 ∧ Refuses input verdict.1 ∧
      ∀ told, verdictLog verdict.1 = some told → told = transferLog sender receiver amount ∧
        (amount ≠ 0 → Payable (Policed env) (view env.hashes journal) sender receiver) := by
  dsimp only [checkTransfer]
  by_cases nothing : amount = 0
  · rw [if_pos nothing]
    refine ⟨Warms.refl _, (fun _ refused => nomatch refused), ?_⟩
    intro told verdict
    rw [← Option.some.inj verdict, transferLog, if_pos (Or.inr nothing)]
    exact ⟨rfl, fun something => (something nothing).elim⟩
  · rw [if_neg nothing]
    obtain ⟨warms, refuses, allows⟩ := checkBlocklistAndCreateLog_spec sender receiver nothing input
      journal
    refine ⟨warms, refuses, ?_⟩
    intro told verdict
    obtain ⟨logged, sends, receives, standing⟩ := allows told verdict
    exact ⟨logged, fun _ => ⟨standing, fun _ => ⟨sends, receives⟩⟩⟩

/-- The inputs that instructions and transactions build: value goes to another account only with
CALL, code runs at a reserved address only if it is the precompile there, and the nonce that a first
creation is checked with is that of its creator. -/
def Allowed (env : Env) (depth : ℕ) (journal : EvmJournal) : FrameInput → Prop
  | .call inputs =>
    (inputs.scheme ≠ .call → inputs.caller = inputs.targetAddress ∨ inputs.amount = 0) ∧
      (Unreserved inputs.targetAddress ∨ inputs.targetAddress = inputs.bytecodeAddress)
  | .create inputs =>
    (∀ address, inputs.scheme ≠ .custom address) ∧
      (depth = 0 → (journal.cells inputs.caller).nonce = env.txNonce)

variable {depth : ℕ}

theorem Started.of_warms {older : EvmJournal} {fit fit' : Prop} {started : ItemOrResult × EvmJournal}
    (spec : Started env depth input journal fit started) (warms : Warms older journal)
    (fits : fit' → fit) : Started env depth input older fit' started := by
  have seen := warms.view_eq env.hashes
  obtain ⟨outcome, after⟩ := started
  cases outcome with
  | item frame =>
    obtain ⟨ready, ⟨deep, gas, describes, before, quiet, mark, since⟩, pushed⟩ := spec
    refine ⟨ready, ⟨deep, gas, describes, warms.grown.trans before,
      fun inputs call => warms.trans (quiet inputs call), mark, since⟩, fun fit => ?_⟩
    obtain ⟨unreserved, woken, steps⟩ := pushed (fits fit)
    exact ⟨unreserved, seen ▸ woken, steps⟩
  | result result =>
    obtain ⟨⟨gas, grown, quiet⟩, ended⟩ := spec
    refine ⟨⟨gas, warms.grown.trans grown,
      fun inputs call failed => warms.trans (quiet inputs call failed)⟩, fun fit => ?_⟩
    obtain ⟨turn, created⟩ := ended (fits fit)
    exact ⟨seen ▸ turn, seen ▸ created⟩

theorem checkedFrameInit_of_told
    (allows : verdictLog (beforeFrameInit env depth input journal).1 = some told) :
    checkedFrameInit env depth input journal =
      initFrameWithLog env depth (beforeFrameInit env depth input journal).2.1 told
        (beforeFrameInit env depth input journal).2.2 := by
  unfold checkedFrameInit
  generalize beforeFrameInit env depth input journal = before at allows ⊢
  obtain ⟨verdict, handed, after⟩ := before
  cases verdict with
  | reverted result => cases allows
  | log entry | checked | none =>
    rw [← Option.some.inj allows]

theorem checkedFrameInit_of_reverted {result : FrameResult}
    (refused : (beforeFrameInit env depth input journal).1 = .reverted result) :
    checkedFrameInit env depth input journal =
      (.result result, (beforeFrameInit env depth input journal).2.2) := by
  unfold checkedFrameInit
  generalize beforeFrameInit env depth input journal = before at refused ⊢
  obtain ⟨verdict, handed, after⟩ := before
  cases refused
  rfl

theorem reverted_or_told (verdict : BeforeFrameInitResult) :
    (∃ result, verdict = .reverted result) ∨ ∃ told, verdictLog verdict = some told := by
  cases verdict with
  | log entry | checked => exact Or.inr ⟨_, rfl⟩
  | reverted result => exact Or.inl ⟨result, rfl⟩
  | none => exact Or.inr ⟨_, rfl⟩

theorem warms_checkTransfer (params : Option (Address × Address × U256)) (input : FrameInput)
    (journal : EvmJournal) :
    Warms journal (checkTransfer env params input journal).2 ∧
      Refuses input (checkTransfer env params input journal).1 := by
  cases params with
  | none => exact ⟨Warms.refl _, fun _ refused => nomatch refused⟩
  | some values =>
    obtain ⟨sender, receiver, amount⟩ := values
    obtain ⟨warms, refuses, -⟩ := @checkTransfer_spec env sender receiver amount input journal
    exact ⟨warms, refuses⟩

theorem warms_loadCreator (depth : ℕ) (inputs : CreateInputs) (journal : EvmJournal) :
    Warms journal (loadCreator depth inputs journal) := by
  unfold loadCreator
  split_ifs
  · exact warms_loadAccount _ _
  · exact Warms.refl _

theorem told_call
    (schemes : inputs.scheme ≠ .call → inputs.caller = inputs.targetAddress ∨ inputs.amount = 0)
    (verdict : verdictLog (beforeFrameInit env depth (.call inputs) journal).1 = some told) :
    told = transferLog inputs.caller inputs.targetAddress inputs.amount ∧
      (inputs.caller ≠ inputs.targetAddress → inputs.amount ≠ 0 → Payable (Policed env)
        (view env.hashes journal) inputs.caller inputs.targetAddress) := by
  dsimp only [beforeFrameInit] at verdict
  by_cases plain : inputs.scheme = .call
  · have params : extractCallTransferParams inputs =
        some (inputs.caller, inputs.targetAddress, inputs.amount) := by
      unfold extractCallTransferParams
      rw [plain]
      rfl
    rw [params] at verdict
    obtain ⟨-, -, allows⟩ := checkTransfer_spec inputs.caller inputs.targetAddress inputs.amount
      (.call inputs) journal
    obtain ⟨logged, payable⟩ := allows told verdict
    exact ⟨logged, fun _ something => payable something⟩
  · have params : extractCallTransferParams inputs = none := by
      unfold extractCallTransferParams
      cases scheme : inputs.scheme with
      | call => exact (plain scheme).elim
      | callCode | delegateCall | staticCall => rfl
    rw [params] at verdict
    rw [← Option.some.inj verdict, transferLog, if_pos (schemes plain)]
    exact ⟨rfl, fun apart something => ((not_or.mpr ⟨apart, something⟩) (schemes plain)).elim⟩

theorem normalizeCreate_address (inputs : CreateInputs) (nonce : ℕ) :
    (normalizeCreate env inputs).createdAddress env.hashes nonce =
      inputs.createdAddress env.hashes nonce := by
  unfold normalizeCreate
  cases scheme : inputs.scheme with
  | create | custom address => rfl
  | create2 salt =>
    dsimp only
    split_ifs
    · rfl
    · simp [CreateInputs.createdAddress, scheme]

theorem normalizeCreate_fields (inputs : CreateInputs) :
    (normalizeCreate env inputs).caller = inputs.caller ∧
      (normalizeCreate env inputs).value = inputs.value ∧
      (normalizeCreate env inputs).gasLimit = inputs.gasLimit := by
  unfold normalizeCreate
  cases inputs.scheme with
  | create | custom address => exact ⟨rfl, rfl, rfl⟩
  | create2 salt =>
    dsimp only
    split_ifs <;> exact ⟨rfl, rfl, rfl⟩

theorem Started.normalized {inputs : CreateInputs} {fit : Prop} {started : ItemOrResult × EvmJournal}
    (spec : Started env depth (.create (normalizeCreate env inputs)) journal fit started) :
    Started env depth (.create inputs) journal fit started := by
  obtain ⟨caller, -, limit⟩ := @normalizeCreate_fields env inputs
  have wakes_eq : ∀ ledger, wakes (.create (normalizeCreate env inputs)) ledger =
      wakes (.create inputs) ledger := by
    intro ledger
    simp only [wakes, caller]
  obtain ⟨outcome, after⟩ := started
  cases outcome with
  | item frame =>
    obtain ⟨ready, ⟨deep, gas, ⟨creates, called, static⟩, before, -, mark, since⟩, pushed⟩ := spec
    refine ⟨ready, ⟨deep, gas.trans limit, ⟨creates, called.trans caller, static⟩, before,
      (fun _ call => nomatch call), mark, since⟩, fun fit => ?_⟩
    obtain ⟨unreserved, woken, steps⟩ := pushed fit
    exact ⟨unreserved, woken.trans (wakes_eq _), steps⟩
  | result result =>
    obtain ⟨⟨gas, grown, -⟩, ended⟩ := spec
    refine ⟨⟨gas.trans limit, grown, fun _ call => nomatch call⟩,
      fun fit => ⟨(ended fit).turn, fun _ _ => ?_⟩⟩
    rw [← wakes_eq]
    exact (ended fit).created _ rfl

/-- **The checks before a frame** only make slots and accounts warm, and hand the input on, a
creation with its address settled. -/
theorem beforeFrameInit_spec (depth : ℕ) (input : FrameInput) (journal : EvmJournal) :
    let before := beforeFrameInit env depth input journal
    Warms journal before.2.2 ∧ Refuses input before.1 ∧
      match input with
      | .call inputs => before.2.1 = .call inputs
      | .create inputs => before.2.1 = .create (normalizeCreate env inputs) := by
  cases input with
  | call inputs =>
    obtain ⟨warms, refuses⟩ := @warms_checkTransfer env (extractCallTransferParams inputs)
      (.call inputs) journal
    exact ⟨warms, refuses, rfl⟩
  | create inputs =>
    obtain ⟨warms, refuses⟩ := @warms_checkTransfer env
      (createTransferParams env depth inputs journal) (.create (normalizeCreate env inputs))
      (loadCreator depth inputs journal)
    refine ⟨(warms_loadCreator depth inputs journal).trans warms, ?_, rfl⟩
    intro result refused
    obtain ⟨failed, gas⟩ := refuses result refused
    exact ⟨failed, gas.trans (normalizeCreate_fields inputs).2.2⟩

theorem told_create {inputs : CreateInputs}
    (allowed : Allowed env depth journal (.create inputs))
    (verdict : verdictLog (beforeFrameInit env depth (.create inputs) journal).1 = some told) :
    told = transferLog inputs.caller
        (inputs.createdAddress env.hashes (journal.cells inputs.caller).nonce) inputs.value ∧
      (inputs.value ≠ 0 → Payable (Policed env) (view env.hashes journal) inputs.caller
        (inputs.createdAddress env.hashes (journal.cells inputs.caller).nonce)) := by
  obtain ⟨notCustom, first⟩ := allowed
  have params : createTransferParams env depth inputs journal =
      if inputs.value = 0 then none
      else some (inputs.caller, inputs.createdAddress env.hashes (journal.cells inputs.caller).nonce,
        inputs.value) := by
    unfold createTransferParams
    by_cases nothing : inputs.value = 0
    · rw [if_pos nothing, if_pos nothing]
    · rw [if_neg nothing, if_neg nothing]
      cases scheme : inputs.scheme with
      | create =>
        dsimp only
        split_ifs with top
        · rw [first top]
        · rfl
      | create2 salt => simp only [CreateInputs.createdAddress, scheme]
      | custom address => exact (notCustom address scheme).elim
  dsimp only [beforeFrameInit] at verdict
  rw [params] at verdict
  split_ifs at verdict with nothing
  · rw [← Option.some.inj verdict, transferLog, if_pos (Or.inr nothing)]
    exact ⟨rfl, fun something => (something nothing).elim⟩
  · obtain ⟨-, -, allows⟩ := checkTransfer_spec inputs.caller
      (inputs.createdAddress env.hashes (journal.cells inputs.caller).nonce) inputs.value
      (.create (normalizeCreate env inputs)) (loadCreator depth inputs journal)
    rw [(warms_loadCreator depth inputs journal).view_eq] at allows
    exact allows told verdict

/-- **Starting a frame** opens a checkpoint on a journal that only grew, or ends at once; with its
checks, its payment and its log it makes steps of the ledger. -/
theorem started_checkedFrameInit (depth : ℕ) (input : FrameInput) (journal : EvmJournal) :
    Started env depth input journal
      (Deployed (view env.hashes journal) ∧ Allowed env depth journal input)
      (checkedFrameInit env depth input journal) := by
  obtain ⟨warms, refuses, handed⟩ := @beforeFrameInit_spec env depth input journal
  rcases reverted_or_told (beforeFrameInit env depth input journal).1 with
    ⟨result, refused⟩ | ⟨told, verdict⟩
  · rw [checkedFrameInit_of_reverted refused]
    obtain ⟨-, gas⟩ := refuses result refused
    exact ⟨⟨gas, warms.grown, fun _ _ _ => warms⟩, fun _ => ⟨warms.silent.follows.turns.turn,
      fun _ _ => Or.inl (warms.view_eq env.hashes)⟩⟩
  rw [checkedFrameInit_of_told verdict]
  cases input with
  | call inputs =>
    rw [show (beforeFrameInit env depth (.call inputs) journal).2.1 = _ from handed]
    refine (started_call inputs told _).of_warms warms ?_
    rintro ⟨-, schemes, sited⟩
    obtain ⟨logged, payable⟩ := told_call schemes verdict
    rw [warms.view_eq]
    exact ⟨logged, sited, payable⟩
  | create inputs =>
    rw [show (beforeFrameInit env depth (.create inputs) journal).2.1 = _ from handed]
    refine (started_create _ told _).normalized.of_warms warms ?_
    rintro ⟨deployed, allowed⟩
    obtain ⟨logged, payable⟩ := told_create allowed verdict
    obtain ⟨caller, value, -⟩ := @normalizeCreate_fields env inputs
    rw [normalizeCreate_address, caller, value, warms.nonce, warms.view_eq]
    exact ⟨deployed, logged, payable⟩

end Checks

end ArcNode.Evm
