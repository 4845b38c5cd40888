/-
**A restarted height begins where it began.**

When a decision fails the height starts again, and the block below it is read back from the store.
The block it began with came from the handshake or the decision below and is kept in the memory of
the machine (`noteStart`). In every run in which the store still has payload and certificate of the
height below (`RestartKnown`), and the execution layer reports the decided blocks, a restart brings
the height back to its first state (**`restarts_restore`**). The first height has nothing below it:
`first_restart_loses_genesis`.
-/

import ArcNode.App.DecidedChain

namespace ArcNode.App

open ArcNode.Lib ArcNode.Types ArcNode.Store

/-! ### The block a height begins with -/

def Node.begins (node : Node) : NodeInput → Bool
  | .consensusReady _ _ => node.state.isNone
  | .finalized _ _ => node.state.any fun state =>
    match state.decision with
    | some (.success _) => true
    | _ => false
  | _ => false

/-- Keeps the previous block as it was set when the height began. -/
def noteStart (first : Option ExecutionBlock) (before : Node) (input : NodeInput)
    (result : Node × List StreamMessage) : Option ExecutionBlock :=
  if before.begins input then result.1.state.bind State.previousBlock else first

/-- The block is that of the decided payload of its number, if that one is stored. -/
def Matches (db : AppDb) (block : ExecutionBlock) : Prop :=
  ∀ payload ∈ db.decidedBlocks.get block.blockNumber, block = .ofPayload payload
  deriving Decidable

/-- **An execution layer that reports decided blocks**: its head, and the block a checkpoint sync
comes back with. -/
def ExecutionLayer.Reports (layer : ExecutionLayer) (db : AppDb) : Prop :=
  (∀ head ∈ layer.latestBlock, Matches db head) ∧
    ∀ stored ∈ db.certificates.get (latestHeightCons db),
      ∀ block ∈ checkpointSync layer stored.certificate.valueId (latestHeightCons db),
        Matches db block
  deriving Decidable

def AtHeight (node : Node) (input : NodeInput) : Prop :=
  ∀ state ∈ node.state, (∀ certificate ∈ input.decides, certificate.height = state.currentHeight) ∧
    ∀ certificate ∈ input.finalizes, certificate.height = state.currentHeight
  deriving Decidable

/-- **What restarts need**: the store knows the block below, the execution layer reports decided
blocks, and consensus works on the height of the node. -/
def Restorable (before : Node × Option ExecutionBlock) (input : NodeInput) : Prop :=
  RestartKnown before.1 input ∧ (∀ layer ∈ input.layer, layer.Reports before.1.world.db) ∧
    AtHeight before.1 input
  deriving Decidable

/-- **A height is back at its beginning**: it has the block it began with, no round, and nothing
undecided or pending at or below it. -/
structure Restored (first : Option ExecutionBlock) (height : Height) (after : Node) : Prop where
  state : ∃ block state, first = some block ∧ after.state = some state ∧
    state.previousBlock = some block ∧ state.currentHeight = height ∧ state.currentRound = .nil
  undecided : ∀ key ∈ after.world.db.undecidedBlocks.keys, height < key.height
  pending : ∀ key ∈ after.world.db.pendingProposalParts.keys, height < key.height

def RestartRestores (step : Node → NodeInput → Node × List StreamMessage)
    (before : Node × Option ExecutionBlock) (input : NodeInput) : Prop :=
  ∀ certificate ∈ input.finalizes, ∀ state ∈ before.1.state, state.decision = some .failure →
    Restored before.2 state.currentHeight (step before.1 input).1

/-! ### The invariant -/

variable {certificate : CommitCertificate}

section Invariant

variable {db after : AppDb} {block : ExecutionBlock} {first : Option ExecutionBlock}
  {node : Node} {state : State}

/-- The height began with the decided block below it, and so will the next one. -/
structure BeganAt (first : Option ExecutionBlock) (db : AppDb) (state : State) : Prop where
  current : ∃ block, first = some block ∧ block.blockNumber.increment = some state.currentHeight ∧
    Matches db block
  decision : ∀ info, state.decision = some (.success info) →
    info.decidedBlock.blockNumber.increment = some info.nextHeight ∧ Matches db info.decidedBlock

def StartInv (before : Node × Option ExecutionBlock) : Prop :=
  ∀ state ∈ before.1.state, BeganAt before.2 before.1.world.db state

theorem Matches.mono (here : Matches db block)
    (fewer : ∀ payload, after.decidedBlocks.get block.blockNumber = some payload →
      db.decidedBlocks.get block.blockNumber = some payload) : Matches after block :=
  fun payload found => here payload (fewer payload found)

theorem BeganAt.mono (began : BeganAt first db state)
    (fewer : ∀ height payload, after.decidedBlocks.get height = some payload →
      db.decidedBlocks.get height = some payload) : BeganAt first after state where
  current := by
    obtain ⟨block, known, next, here⟩ := began.current
    exact ⟨block, known, next, here.mono (fewer _)⟩
  decision info same :=
    ⟨(began.decision info same).1, (began.decision info same).2.mono (fewer _)⟩

theorem BeganAt.move {other : State} (began : BeganAt first db state)
    (same : SamePosition state other) : BeganAt first db other where
  current := by
    rw [same.currentHeight]
    exact began.current
  decision := by
    rw [same.decision]
    exact began.decision

theorem BeganAt.failed (began : BeganAt first db state) :
    BeganAt first db { state with decision := some .failure } where
  current := began.current
  decision info same := by cases same

/-- **A commit** stores its payload above the block the height began with, and hands its block
on. -/
theorem BeganAt.commits (began : BeganAt first node.world.db state) {config : NodeConfig}
    (current : certificate.height = state.currentHeight)
    {validators : Option ValidatorSet}
    {row : ConsensusBlock} {after : Node}
    (commits : Commits config node state certificate validators row after) :
    ∀ later ∈ after.state, BeganAt first after.world.db later := by
  have number : row.executionPayload.blockNumber = certificate.height :=
    (bound_iff.mp commits.usable.2).1
  have handed : Matches after.world.db (.ofPayload row.executionPayload) := by
    intro payload found
    have inserted := commits.frame.tables.payloads _ _ found
    rw [Db.insertDecidedBlock, Table.get_insert] at inserted
    rw [Option.some.inj ((if_pos number).symm.trans inserted)]
  obtain ⟨block, known, next, here⟩ := began.current
  have below : block.blockNumber ≠ certificate.height := by
    intro same
    rw [Height.increment_eq_some, ← current, ← same] at next
    omega
  have kept : Matches after.world.db block := by
    refine here.mono fun payload found => ?_
    have inserted := commits.frame.tables.payloads _ _ found
    rwa [Db.insertDecidedBlock, Table.get_insert, if_neg below] at inserted
  intro later member
  rcases commits.state later member with rfl | ⟨nextHeight, validatorSet, following, -, rfl⟩
  · exact ⟨⟨block, known, next, kept⟩, fun info same => by cases same⟩
  · refine ⟨⟨block, known, next, kept⟩, fun info same => ?_⟩
    rw [← Decision.success.inj (Option.some.inj same)]
    refine ⟨?_, handed⟩
    show row.executionPayload.blockNumber.increment = some nextHeight
    rw [number]
    exact following

end Invariant

/-! ### One step -/

section Step

variable {E : Externals} {engine : Engine} {signBytes : BlockHash → Option Signature}
  {config : NodeConfig} {node : Node} {state : State} {first : Option ExecutionBlock}

/-- **A start begins a height with a decided block**, if the execution layer reports those. -/
theorem matches_of_path {db : AppDb} {layer : ExecutionLayer} (reports : layer.Reports db)
    {head previous : ExecutionBlock} (present : layer.latestBlock = some head)
    (path : StartPath layer db head previous) : Matches db previous := by
  cases path with
  | nothing level => exact reports.1 head present
  | replayed below complete found number =>
    intro payload there
    have same : _ = some payload := (number ▸ found).symm.trans there
    rw [Option.some.inj same]
  | synced below gap found reached => exact reports.2 _ found _ reached

theorem beganAt_consensusReady {layer : ExecutionLayer} (reports : layer.Reports node.world.db)
    (now : ℕ) :
    StartInv (consensusReady engine config node layer now,
      (consensusReady engine config node layer now).state.bind State.previousBlock) := by
  obtain ⟨frame, starts⟩ := consensusReady_cases engine config node layer now
  intro state member
  obtain ⟨head, previous, present, path, known, next⟩ := (starts state member).path
  have here : Matches (consensusReady engine config node layer now).world.db previous :=
    (matches_of_path reports present path).mono fun payload found => frame.decidedBlocks ▸ found
  refine ⟨⟨previous, ?_, next, here⟩, fun info same => ?_⟩
  · show Option.bind _ _ = _
    rw [show (consensusReady engine config node layer now).state = some state from member,
      Option.bind_some, known]
  · rw [(starts state member).decision] at same
    cases same

theorem restored_restartHeight (began : BeganAt first node.world.db state)
    (current : certificate.height = state.currentHeight)
    (known : (getDecidedBlock node.world.db (certificate.height.saturatingSub 1)).join.isSome = true)
    (evidence : Option (List Byte)) {taken : State} (undecided : taken.decision = none) :
    Restored first state.currentHeight
        (restartHeight (storeFinalized node certificate evidence) taken certificate.height) ∧
      StartInv (restartHeight (storeFinalized node certificate evidence) taken certificate.height,
        first) := by
  obtain ⟨payload, found, restarts⟩ := restartHeight_known known evidence
  obtain ⟨block, remembered, next, here⟩ := began.current
  have frame := finalizedFrame_storeFinalized node certificate evidence
  have below : certificate.height.saturatingSub 1 = block.blockNumber :=
    saturatingSub_of_increment (current ▸ next)
  have same : block = .ofPayload payload := here payload (below ▸ found)
  rw [restarts]
  refine ⟨⟨⟨block, _, remembered, rfl, ?_, current, rfl⟩, ?_, ?_⟩, ?_⟩
  · rw [same]
  · intro key member
    rw [← current]
    exact Db.lt_of_mem_cleanStaleConsensusData (.inl member)
  · intro key member
    rw [← current]
    exact Db.lt_of_mem_cleanStaleConsensusData (.inr member)
  · intro later member
    rw [← Option.some.inj member]
    refine ⟨⟨block, remembered, current ▸ next, ?_⟩, fun info decided => ?_⟩
    · exact here.mono fun payload there => frame.decidedBlocks ▸ there
    · have contradiction : taken.decision = some (.success info) := decided
      rw [undecided] at contradiction
      cases contradiction

variable {input : NodeInput}

theorem begins_of_quiet (running : node.state = some state)
    (quiet : input.quiet = true) : node.begins input = false := by
  cases input with
  | consensusReady layer now => exact Option.isNone_eq_false_iff.mpr (running ▸ rfl)
  | finalized => cases quiet
  | _ => rfl

theorem startInv_finalized (began : BeganAt first node.world.db state)
    (running : node.state = some state)
    (current : certificate.height = state.currentHeight)
    (known : state.decision = some .failure →
      (getDecidedBlock node.world.db (certificate.height.saturatingSub 1)).join.isSome = true)
    (evidence : Option (List Byte)) :
    StartInv (finalized config node state certificate evidence,
        noteStart first node (.finalized certificate evidence)
          (finalized config node state certificate evidence, [])) ∧
      (state.decision = some .failure →
        Restored first state.currentHeight (finalized config node state certificate evidence)) := by
  have begins : node.begins (.finalized certificate evidence) =
      match state.decision with
      | some (.success _) => true
      | _ => false := by
    simp only [Node.begins, running, Option.any_some]
  unfold noteStart
  rw [begins]
  rcases finalized_cases config node state certificate evidence with
    ⟨info, decision, moves⟩ | ⟨decision, same⟩ | ⟨decision, same⟩
  · obtain ⟨next, here⟩ := began.decision info decision
    rw [decision]
    refine ⟨fun later member => ?_, fun failed => by cases failed⟩
    have there : (finalized config node state certificate evidence).state = some later := member
    obtain rfl := moves.state later member
    refine ⟨⟨info.decidedBlock, ?_, next, ?_⟩, fun other taken => by cases taken⟩
    · dsimp only
      rw [if_pos rfl, there]
      rfl
    · refine here.mono fun payload found => ?_
      have frame := finalizedFrame_storeFinalized node certificate evidence
      rwa [moves.world, frame.decidedBlocks] at found
  · rw [decision, same]
    obtain ⟨restored, inv⟩ := restored_restartHeight began current (known decision) evidence
      (show State.decision { state with decision := none } = none from rfl)
    exact ⟨inv, fun _ => restored⟩
  · rw [decision, same]
    exact ⟨fun later member => (by cases member), fun failed => (by cases failed)⟩

theorem startInv_running (began : BeganAt first node.world.db state)
    (running : node.state = some state)
    (meets : Restorable (node, first) input) :
    StartInv ((runningStep E engine signBytes config node state input).1,
        noteStart first node input (runningStep E engine signBytes config node state input)) ∧
      ∀ certificate ∈ input.finalizes, state.decision = some .failure →
        Restored first state.currentHeight
          (runningStep E engine signBytes config node state input).1 := by
  obtain ⟨known, -, current⟩ := meets
  by_cases quiet : input.quiet = true
  · have frame : QuietFrame E node state input
        (runningStep E engine signBytes config node state input).1 := quiet_frame running quiet
    unfold noteStart
    rw [begins_of_quiet running quiet]
    refine ⟨fun later member => ?_, fun certificate final => ?_⟩
    · exact (began.move (frame.position later member)).mono frame.tables.decided.payloads
    · cases input with
      | finalized => cases quiet
      | _ => cases final
  have decision : ∀ certificate validators after, certificate.height = state.currentHeight →
      (Refuses node state after ∨ ∃ row, Commits config node state certificate validators row after) →
      StartInv (after, first) := by
    rintro certificate validators after here (refused | ⟨row, commits⟩)
    · intro later member
      rw [refused.state later member]
      exact refused.world ▸ began.failed
    · exact began.commits here commits
  cases input with
  | decided certificate answers =>
    exact ⟨decision certificate _ _ ((current state running).1 certificate rfl)
      (decided_cases config node state certificate answers), fun _ final => by cases final⟩
  | crashInCommit certificate stop =>
    exact ⟨decision certificate _ _ ((current state running).1 certificate rfl)
      (interruptedCommit_cases config node state certificate stop), fun _ final => by cases final⟩
  | finalized certificate evidence =>
    obtain ⟨inv, restored⟩ := startInv_finalized began running
      ((current state running).2 certificate rfl) (known certificate rfl state running) evidence
    exact ⟨inv, fun _ _ => restored⟩
  | crashInFinalized certificate evidence =>
    refine ⟨fun later member => ?_, fun _ final => by cases final⟩
    simp only [runningStep] at member
    split_ifs at member
    · cases member
    · cases member
  | _ => exact absurd rfl quiet

theorem startInv_step {before : Node × Option ExecutionBlock}
    (inv : StartInv before) (meets : Restorable before input) :
    StartInv (remembering (nodeStep E engine signBytes config) noteStart before input).1 ∧
      RestartRestores (nodeStep E engine signBytes config) before input := by
  obtain ⟨node, first⟩ := before
  unfold remembering RestartRestores nodeStep
  cases running : node.state with
  | none =>
    refine ⟨?_, fun certificate _ state member => by cases member⟩
    cases input with
    | consensusReady layer now =>
      have begins : node.begins (.consensusReady layer now) = true := by
        simp only [Node.begins, running, Option.isNone_none]
      dsimp only [noteStart]
      rw [begins, if_pos rfl]
      exact beganAt_consensusReady (meets.2.1 layer rfl) now
    | _ =>
      intro state member
      rw [Option.mem_def, running] at member
      cases member
  | some state =>
    obtain ⟨kept, restores⟩ := startInv_running (inv state running) running meets
    refine ⟨kept, fun certificate final other member => ?_⟩
    rw [← Option.some.inj member]
    exact restores certificate final

/-- **Restarts restore**: along every run from a stopped node, whatever its store holds, every
restarted height is back at its beginning, as long as its steps are `Restorable`. -/
theorem restarts_restore {start : Node} (stopped : start.state = none) {inputs : List NodeInput}
    (meets : Along (remembering (nodeStep E engine signBytes config) noteStart) Restorable
      (start, none) inputs) :
    Along (remembering (nodeStep E engine signBytes config) noteStart)
      (RestartRestores (nodeStep E engine signBytes config)) (start, none) inputs := by
  have begins : StartInv (start, none) := by
    intro state member
    rw [Option.mem_def, stopped] at member
    cases member
  exact along_of_invariant (fun _ _ inv meets => (startInv_step inv meets).1)
    (fun _ _ inv meets => (startInv_step inv meets).2) begins meets

end Step

section Samples

/-- Height 2 restarts on top of the block of height 1. -/
theorem restarts_restore_restartInputs :
    (run (chainStep ⟨0, 0⟩) Node.new restartInputs).state.map State.previousBlock =
        some (some (.ofPayload genuinePayload)) ∧
      Along (remembering (chainStep ⟨0, 0⟩) noteStart) (RestartRestores (chainStep ⟨0, 0⟩))
        (Node.new, none) restartInputs :=
  ⟨by decide +kernel, restarts_restore rfl (by decide +kernel)⟩

/-- The node starts on genesis, and height 1 is decided before its payload is known. -/
def genesisInputs : List NodeInput :=
  [.consensusReady (layerAt ⟨5, 0, 0, 0⟩) 0, .decided firstCertificate goodAnswers]

/-- **The restart of the first height loses genesis**: it has no decided block below it. -/
theorem first_restart_loses_genesis :
    (run (remembering (chainStep ⟨0, 0⟩) noteStart) (Node.new, none) genesisInputs).2 =
        some ⟨5, 0, 0, 0⟩ ∧
      (run (chainStep ⟨0, 0⟩) Node.new
        (genesisInputs ++ [.finalized firstCertificate none])).state.map State.previousBlock =
          some none ∧
      ¬ RestartRestores (chainStep ⟨0, 0⟩)
        (run (remembering (chainStep ⟨0, 0⟩) noteStart) (Node.new, none) genesisInputs)
        (.finalized firstCertificate none) := by
  have lost : (run (chainStep ⟨0, 0⟩) Node.new
      (genesisInputs ++ [.finalized firstCertificate none])).state.map State.previousBlock =
        some none := by decide +kernel
  refine ⟨by decide +kernel, lost, fun restores => ?_⟩
  have failing : (run (remembering (chainStep ⟨0, 0⟩) noteStart) (Node.new, none)
      genesisInputs).1.state.map State.decision = some (some .failure) := by decide +kernel
  obtain ⟨state, present, failed⟩ := Option.map_eq_some_iff.mp failing
  obtain ⟨block, later, -, there, previous, -⟩ :=
    (restores firstCertificate rfl state present failed).state
  rw [run_append, ← run_remembering _ noteStart Node.new none genesisInputs, run, run, there,
    Option.map_some, previous] at lost
  cases lost

end Samples

end ArcNode.App
