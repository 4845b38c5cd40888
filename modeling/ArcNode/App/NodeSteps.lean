/-
**What one input does to a running node.**

Three kinds of inputs matter to the tables of decided blocks and to the position of the node. An
input that neither decides nor finalizes leaves both alone (**`quiet_frame`**). A decision is
refused, or it commits a usable row and records how the height continues (**`decided_cases`**); one
that is cut off leaves the database of some stage of that commit (**`interruptedCommit_cases`**). A
finalization keeps every table but the certificate it extends (**`finalizedFrame_storeFinalized`**)
and then moves on or restarts the height.
-/

import ArcNode.App.DecidedFrame
import ArcNode.App.StartPosition

namespace ArcNode.App

open ArcNode.Lib ArcNode.Types ArcNode.Store

/-! ### The position of a node -/

/-- Where the node stands: these fields change at a decision and at a finalization only. -/
structure SamePosition (before after : State) : Prop where
  previousBlock : after.previousBlock = before.previousBlock
  currentHeight : after.currentHeight = before.currentHeight
  validatorSet : after.validatorSet = before.validatorSet
  decision : after.decision = before.decision

section Position

variable {E : Externals} {engine : Engine} {signBytes : BlockHash → Option Signature}
  {config : NodeConfig} {world : World} {state : State}

theorem SamePosition.refl (state : State) : SamePosition state state := ⟨rfl, rfl, rfl, rfl⟩

theorem samePosition_enterRound {height : Height} {round : Round} {entered : State}
    (enters : enterRound state height round = some entered) : SamePosition state entered := by
  unfold enterRound at enters
  by_cases first : round.asI64 = 0
  · simp only [if_pos first] at enters
    split_ifs at enters
    rw [← Option.some.inj enters]
    exact ⟨rfl, rfl, rfl, rfl⟩
  · simp only [if_neg first] at enters
    split_ifs at enters
    rw [← Option.some.inj enters]
    exact ⟨rfl, rfl, rfl, rfl⟩

variable (height : Height)

theorem samePosition_startedRound (round : Round) (localTime : Option (Fin (2 ^ 64))) :
    ∀ after ∈ (startedRound E engine config world state height round localTime).2,
      SamePosition state after := by
  intro after member
  unfold startedRound at member
  cases enters : enterRound state height round with
  | none => simp [enters] at member
  | some entered =>
    simp only [enters] at member
    cases fetched : fetchAndProcessPendingProposals E engine (entered.context config localTime) world
        height round with
    | none => simp [fetched] at member
    | some result =>
      simp only [fetched, Option.mem_some] at member
      rw [← member]
      exact samePosition_enterRound enters

theorem samePosition_nextStreamId {height : Height} {round : Round} {streamId : StreamId}
    {used : State} (uses : nextStreamId state height round = some (streamId, used)) :
    SamePosition state used := by
  cases round with
  | nil => cases uses
  | some number =>
    obtain ⟨-, rfl⟩ := Prod.mk.inj (Option.some.inj uses)
    exact ⟨rfl, rfl, rfl, rfl⟩

theorem samePosition_getValue (round : Round) (answer : BuildAnswer) :
    ∀ after ∈ (getValue E engine signBytes config world state height round answer).2.1,
      SamePosition state after := by
  intro after member
  unfold getValue at member
  cases uses : nextStreamId state height round with
  | none => simp [uses] at member
  | some used =>
    obtain ⟨streamId, used⟩ := used
    have kept := samePosition_nextStreamId uses
    simp only [uses] at member
    generalize onGetValue E engine signBytes world streamId height round config.address
      state.previousBlock answer = result at member
    obtain ⟨_, outcome⟩ := result
    cases outcome with
    | failed => cases member
    | declined | proposed messages => exact Option.some.inj member ▸ kept

theorem samePosition_restreamProposal (valueId : BlockHash) :
    ∀ after ∈ (restreamProposal E signBytes world state height valueId).1,
      SamePosition state after := by
  intro after member
  unfold restreamProposal at member
  cases found : getUndecidedBlockByHeightAndBlockHash world.db height valueId with
  | none => simp [found] at member
  | some block =>
    simp only [found] at member
    cases uses : nextStreamId state block.height block.round with
    | none => simp [uses] at member
    | some used =>
      obtain ⟨streamId, used⟩ := used
      have kept := samePosition_nextStreamId uses
      simp only [uses] at member
      split_ifs at member
      · cases member
      · cases prepared : prepareStream E signBytes streamId block with
        | none => simp [prepared] at member
        | some messages =>
          simp only [prepared] at member
          exact Option.some.inj member ▸ kept

end Position

/-! ### Inputs that neither decide nor finalize -/

/-- The inputs that leave the decided tables and the position alone. -/
def NodeInput.quiet : NodeInput → Bool
  | decided _ _ | crashInCommit _ _ | finalized _ _ | crashInFinalized _ _ => false
  | _ => true

/-- The parts that are complete with a message. -/
def NodeInput.arrived (state : State) : NodeInput → Option ProposalParts
  | receivedProposalPart delivery _ => (receive state.streams delivery).2.completed
  | _ => none

/-- What a quiet input keeps. -/
structure QuietFrame (E : Externals) (node : Node) (state : State) (input : NodeInput)
    (after : Node) : Prop where
  tables : IngestFrame E (input.arrived state) node.world.db after.world.db
  finalizations : after.finalizations = node.finalizations
  position : ∀ later ∈ after.state, SamePosition state later

section Quiet

variable {E : Externals} {engine : Engine} {signBytes : BlockHash → Option Signature}
  {config : NodeConfig} {node : Node} {state : State}

theorem quiet_frame (running : node.state = some state) {input : NodeInput}
    (quiet : input.quiet = true) :
    QuietFrame E node state input (runningStep E engine signBytes config node state input).1 := by
  have same : ∀ later ∈ some state, SamePosition state later := by
    intro later member
    rw [← Option.some.inj member]
    exact .refl state
  have stopped : ∀ later ∈ (none : Option State), SamePosition state later := by
    intro later member
    cases member
  cases input with
  | consensusReady layer now => exact ⟨.refl _, rfl, running ▸ same⟩
  | startedRound height round localTime =>
    exact ⟨ingestFrame_startedRound height round localTime, rfl,
      samePosition_startedRound height round localTime⟩
  | getValue height round answer =>
    exact ⟨ingestFrame_getValue height round answer, rfl, samePosition_getValue height round answer⟩
  | restreamProposal height valueId =>
    exact ⟨.refl _, rfl, samePosition_restreamProposal height valueId⟩
  | receivedProposalPart delivery localTime =>
    refine ⟨ingestFrame_onReceivedProposalPart state.streams delivery, rfl, ?_⟩
    intro later member
    rw [← Option.some.inj member]
    exact ⟨rfl, rfl, rfl, rfl⟩
  | processSyncedValue height round proposer valueBytes =>
    exact ⟨ingestFrame_onProcessSyncedValue height round proposer valueBytes, rfl, running ▸ same⟩
  | crash => exact ⟨.refl _, rfl, stopped⟩
  | crashInRound height round turns =>
    exact ⟨ingestFrame_interruptedRound height round turns, rfl, stopped⟩
  | crashInGetValue height round answer =>
    exact ⟨ingestFrame_getValue height round answer, rfl, stopped⟩
  | decided | finalized | crashInCommit | crashInFinalized => cases quiet

end Quiet

/-! ### The start of the process -/

/-- **What a start keeps**: every table but the pending parts, of which some may go; what it
finalizes is stored. -/
structure StartFrame (node after : Node) : Prop where
  decidedBlocks : after.world.db.decidedBlocks = node.world.db.decidedBlocks
  certificates : after.world.db.certificates = node.world.db.certificates
  undecidedBlocks : after.world.db.undecidedBlocks = node.world.db.undecidedBlocks
  pending : ∀ key parts, after.world.db.pendingProposalParts.get key = some parts →
    node.world.db.pendingProposalParts.get key = some parts
  finalized : ∀ call ∈ after.finalizations, call ∈ node.finalizations ∨
    node.world.db.decidedBlocks.get call.height = some call.payload

/-- **The state a start ends with**: one height above the block its handshake ended with. -/
structure StartsFrom (layer : ExecutionLayer) (db : AppDb) (state : State) : Prop where
  path : ∃ head previous, layer.latestBlock = some head ∧ StartPath layer db head previous ∧
    state.previousBlock = some previous ∧
    previous.blockNumber.increment = some state.currentHeight
  validatorSet : layer.validatorSet state.currentHeight = some state.validatorSet
  decision : state.decision = none

theorem pending_enforcePendingProposalsLimit {db after : AppDb} {limit : ℕ} {height : Height}
    (enforced : enforcePendingProposalsLimit db limit height = some after) :
    after.undecidedBlocks = db.undecidedBlocks ∧ after.decidedBlocks = db.decidedBlocks ∧
      after.certificates = db.certificates ∧
      ∀ key parts, after.pendingProposalParts.get key = some parts →
        db.pendingProposalParts.get key = some parts := by
  unfold enforcePendingProposalsLimit at enforced
  simp only [Option.bind_eq_bind, Option.bind_eq_some_iff, Option.some.injEq] at enforced
  obtain ⟨_, -, rfl⟩ := enforced
  exact ⟨rfl, rfl, rfl, fun _ _ found => Table.get_of_get_retain found⟩

/-- **A start** keeps the tables and continues above the block its handshake ended with. -/
theorem consensusReady_cases (engine : Engine) (config : NodeConfig) (node : Node)
    (layer : ExecutionLayer) (now : ℕ) :
    StartFrame node (consensusReady engine config node layer now) ∧
      ∀ state ∈ (consensusReady engine config node layer now).state,
        StartsFrom layer node.world.db state := by
  have frame := replayFrame_handshakeAndReplay engine layer ⟨node.world, node.finalizations⟩
  have path := fun result => @handshakeAndReplay_path engine layer
    ⟨node.world, node.finalizations⟩ result
  unfold consensusReady
  generalize handshakeAndReplay engine layer ⟨node.world, node.finalizations⟩ = ran at frame path ⊢
  obtain ⟨replayed, handshake⟩ := ran
  have database : replayed.world.db = node.world.db := frame.database
  have kept : StartFrame node ⟨replayed.world, replayed.finalizations, none⟩ := by
    refine ⟨?_, ?_, ?_, ?_, frame.finalized⟩
    · rw [database]
    · rw [database]
    · rw [database]
    · rw [database]
      exact fun _ _ found => found
  have stopped : ∀ state ∈ (none : Option State), StartsFrom layer node.world.db state := by
    intro state member
    cases member
  cases handshake with
  | none => exact ⟨kept, stopped⟩
  | some result =>
    obtain ⟨head, present, -, -, -, ended, next⟩ := path result rfl
    dsimp only
    cases enforced : enforcePendingProposalsLimit replayed.world.db config.maxPendingProposals
        result.nextHeight with
    | none => exact ⟨kept, stopped⟩
    | some db =>
      rw [database] at enforced
      obtain ⟨undecided, decided, certificates, pending⟩ :=
        pending_enforcePendingProposalsLimit enforced
      have limited : ∀ state, StartFrame node
          ⟨{ replayed.world with db := db }, replayed.finalizations, state⟩ := fun state =>
        ⟨decided, certificates, undecided, pending, frame.finalized⟩
      dsimp only
      cases validators : layer.validatorSet result.nextHeight with
      | none => exact ⟨limited none, stopped⟩
      | some validatorSet =>
        refine ⟨limited _, fun state member => ?_⟩
        rw [← Option.some.inj member]
        exact ⟨⟨head, result.previousBlock, present, ended, rfl, next⟩, validators, rfl⟩

/-! ### Decisions -/

section Decisions

variable {config : NodeConfig} {node : Node} {state : State} {certificate : CommitCertificate}

/-- **The database some stage of a commit leaves**: payload and certificate are inserted, the rows
up to the height may be gone, and pruning may have taken entries of the decided tables. -/
structure CommitFrame (prune : PruningConfig) (before : AppDb) (certificate : CommitCertificate)
    (row : ConsensusBlock) (after : AppDb) : Prop where
  tables : DecidedSubset (before.insertDecidedBlock certificate.height
    ⟨certificate, .minimal, some row.proposer⟩ row.executionPayload) after
  rows : after.undecidedBlocks = before.undecidedBlocks ∧
      after.pendingProposalParts = before.pendingProposalParts ∨
    after.undecidedBlocks = (before.cleanStaleConsensusData certificate.height).undecidedBlocks ∧
      after.pendingProposalParts =
        (before.cleanStaleConsensusData certificate.height).pendingProposalParts
  /-- Certificates from the height on are kept, unless the absolute setting is above it. -/
  certificates : prune.certificatesBefore ≤ certificate.height → ∀ height, certificate.height ≤ height →
    after.certificates.get height = (before.certificates.insert certificate.height
      ⟨certificate, .minimal, some row.proposer⟩).get height

theorem undecidedBlocks_pruneHistoricalCerts (prune : PruningConfig) (db : AppDb)
    (latest : Height) :
    (pruneHistoricalCerts prune db latest).undecidedBlocks = db.undecidedBlocks ∧
      (pruneHistoricalCerts prune db latest).pendingProposalParts = db.pendingProposalParts := by
  unfold pruneHistoricalCerts
  split_ifs
  · exact ⟨rfl, rfl⟩
  · exact ⟨rfl, rfl⟩

theorem commitFrame_commitUntil (config : NodeConfig) (db : AppDb)
    (certificate : CommitCertificate) (row : ConsensusBlock) (stop : CommitStop) :
    CommitFrame config.prune db certificate row (commitUntil config db certificate row stop).1 := by
  have cleaned := decidedSubset_cleanStaleConsensusData (db.insertDecidedBlock certificate.height
    ⟨certificate, .minimal, some row.proposer⟩ row.executionPayload) certificate.height
  cases stop with
  | stored => exact ⟨.refl _, .inl ⟨rfl, rfl⟩, fun _ _ _ => rfl⟩
  | cleaned | finalizing => exact ⟨cleaned, .inr ⟨rfl, rfl⟩, fun _ _ _ => rfl⟩
  | certificatesPruned =>
    exact ⟨cleaned.trans (decidedSubset_pruneHistoricalCerts _ _ _),
      .inr (undecidedBlocks_pruneHistoricalCerts _ _ _),
      fun bounded height above => (trimmed_pruneHistoricalCerts _ bounded).kept height above⟩

theorem commitFrame_commit (prune : PruningConfig) (db : AppDb) (certificate : CommitCertificate)
    (row : ConsensusBlock) (finalizes : Bool) :
    CommitFrame prune db certificate row (Store.commit prune db ⟨certificate.height,
      ⟨certificate, .minimal, some row.proposer⟩, row.executionPayload, finalizes⟩) := by
  have cleaned := decidedSubset_cleanStaleConsensusData (db.insertDecidedBlock certificate.height
    ⟨certificate, .minimal, some row.proposer⟩ row.executionPayload) certificate.height
  unfold Store.commit
  cases finalizes with
  | false => exact ⟨cleaned, .inr ⟨rfl, rfl⟩, fun _ _ _ => rfl⟩
  | true =>
    exact ⟨(cleaned.trans (decidedSubset_pruneHistoricalCerts prune _ _)).trans
        (decidedSubset_pruneBlocks _),
      .inr (undecidedBlocks_pruneHistoricalCerts prune _ _),
      fun bounded height above => (trimmed_pruneHistoricalCerts _ bounded).kept height above⟩

/-- A decision is left to fail: nothing is written. -/
structure Refuses (node : Node) (state : State) (after : Node) : Prop where
  world : after.world = node.world
  finalizations : after.finalizations = node.finalizations
  state : ∀ later ∈ after.state, later = { state with decision := some .failure }

/-- A decision commits a row: it was usable and has the decided hash, and the height continues with
its block and the validators that were found, restarts, or the process ends. -/
structure Commits (config : NodeConfig) (node : Node) (state : State)
    (certificate : CommitCertificate) (validators : Option ValidatorSet) (row : ConsensusBlock)
    (after : Node) : Prop where
  usable : Decided.Usable certificate state.previousBlock row
  hash : row.executionPayload.blockHash = certificate.valueId
  frame : CommitFrame config.prune node.world.db certificate row after.world.db
  finalizations : after.finalizations = node.finalizations ∨
    after.finalizations = node.finalizations ++ [⟨certificate.height, row.executionPayload⟩]
  state : ∀ later ∈ after.state, later = { state with decision := some .failure } ∨
    ∃ nextHeight validatorSet, certificate.height.increment = some nextHeight ∧
      validators = some validatorSet ∧ later = { state with
        decision := some (.success ⟨nextHeight, validatorSet, .ofPayload row.executionPayload⟩) }

theorem decided_cases (config : NodeConfig) (node : Node) (state : State)
    (certificate : CommitCertificate) (answers : DecidedAnswers) :
    Refuses node state (decided config node state certificate answers) ∨
      ∃ row, Commits config node state certificate answers.validatorSet row
        (decided config node state certificate answers) := by
  have stopped : ∀ {P : State → Prop}, ∀ later ∈ (none : Option State), P later := by
    intro P later member
    cases member
  obtain ⟨finalizes, validatorSet⟩ := answers
  unfold decided
  cases decides : Decided.decide config.prune node.world.db certificate state.previousBlock
      finalizes with
  | none => exact .inl ⟨rfl, rfl, stopped⟩
  | some outcome =>
    rcases Decided.decide_eq_some decides with ⟨row, usable, commits⟩ | ⟨error, rfl⟩
    · obtain ⟨agrees, rfl⟩ := Decided.commit_eq_some commits
      have frame := commitFrame_commit config.prune node.world.db certificate row finalizes
      refine .inr ⟨row, ?_⟩
      cases finalizes with
      | false =>
        refine ⟨usable, agrees, frame, .inr rfl, fun later member => .inl ?_⟩
        exact (Option.some.inj member).symm
      | true =>
        cases next : certificate.height.increment with
        | none => exact ⟨usable, agrees, frame, .inr rfl, stopped⟩
        | some nextHeight =>
          cases validatorSet with
          | none => exact ⟨usable, agrees, frame, .inr rfl, stopped⟩
          | some validatorSet =>
            refine ⟨usable, agrees, frame, .inr rfl, fun later member => .inr ?_⟩
            exact ⟨nextHeight, validatorSet, next, rfl, (Option.some.inj member).symm⟩
    · left
      cases error with
      | unbound error => exact ⟨rfl, List.append_nil _, stopped⟩
      | _ =>
        refine ⟨rfl, List.append_nil _, fun later member => ?_⟩
        exact (Option.some.inj member).symm

/-- **A decision that is cut off** wrote nothing, or leaves the database of a stage of its
commit. -/
theorem interruptedCommit_cases (config : NodeConfig) (node : Node) (state : State)
    (certificate : CommitCertificate) (stop : CommitStop) :
    Refuses node state (interruptedCommit config node state certificate stop) ∨
      ∃ row, Commits config node state certificate none row
        (interruptedCommit config node state certificate stop) := by
  have stopped : ∀ {P : State → Prop}, ∀ later ∈ (none : Option State), P later := by
    intro P later member
    cases member
  unfold interruptedCommit
  cases getUndecidedBlockByHeightAndBlockHash node.world.db certificate.height
      certificate.valueId with
  | none => exact .inl ⟨rfl, rfl, stopped⟩
  | some row =>
    dsimp only
    split_ifs with commits
    · refine .inr ⟨row, commits.1, commits.2, commitFrame_commitUntil _ _ _ _ stop, ?_, stopped⟩
      cases stop with
      | stored | cleaned => exact .inl (List.append_nil _)
      | finalizing | certificatesPruned => exact .inr rfl
    · exact .inl ⟨rfl, rfl, stopped⟩

end Decisions

/-! ### Finalizations -/

/-- **What the writes of a finalization keep**: all rows and decided payloads, and of every
certificate the value it is for. -/
structure FinalizedFrame (before after : AppDb) : Prop where
  decidedBlocks : after.decidedBlocks = before.decidedBlocks
  undecidedBlocks : after.undecidedBlocks = before.undecidedBlocks
  pendingProposalParts : after.pendingProposalParts = before.pendingProposalParts
  values : ∀ height, (after.certificates.get height).map (fun stored => stored.certificate.valueId) =
    (before.certificates.get height).map fun stored => stored.certificate.valueId

theorem FinalizedFrame.refl (db : AppDb) : FinalizedFrame db db := ⟨rfl, rfl, rfl, fun _ => rfl⟩

theorem FinalizedFrame.trans {before middle after : AppDb} (first : FinalizedFrame before middle)
    (second : FinalizedFrame middle after) : FinalizedFrame before after where
  decidedBlocks := second.decidedBlocks.trans first.decidedBlocks
  undecidedBlocks := second.undecidedBlocks.trans first.undecidedBlocks
  pendingProposalParts := second.pendingProposalParts.trans first.pendingProposalParts
  values height := (second.values height).trans (first.values height)

theorem finalizedFrame_storeMisbehaviorEvidence (db : AppDb) (height : Height)
    (evidence : Option (List Byte)) :
    FinalizedFrame db (storeMisbehaviorEvidence db height evidence) := by
  unfold storeMisbehaviorEvidence
  cases evidence with
  | none => exact .refl db
  | some bytes => exact ⟨rfl, rfl, rfl, fun _ => rfl⟩

theorem finalizedFrame_extendCertificate (db : AppDb) (certificate : CommitCertificate) :
    FinalizedFrame db (extendCertificate db certificate) := by
  unfold extendCertificate
  cases present : db.certificates.get certificate.height with
  | none => exact .refl db
  | some existing =>
    dsimp only
    split_ifs with extended
    · refine ⟨rfl, rfl, rfl, fun height => ?_⟩
      rw [Table.get_insert]
      split_ifs with same
      · rw [same, present, Option.map_some, Option.map_some, extended.2.2.1]
      · rfl
    · exact .refl db

theorem finalizedFrame_storeFinalized (node : Node) (certificate : CommitCertificate)
    (evidence : Option (List Byte)) :
    FinalizedFrame node.world.db (storeFinalized node certificate evidence).world.db :=
  (finalizedFrame_storeMisbehaviorEvidence _ _ _).trans (finalizedFrame_extendCertificate _ _)

/-- A finalization moves the node on: the state it ends with, if any, is at the next height. -/
structure MovesOn (node : Node) (state : State) (info : NextHeightInfo)
    (certificate : CommitCertificate) (evidence : Option (List Byte)) (after : Node) : Prop where
  world : after.world = (storeFinalized node certificate evidence).world
  finalizations : after.finalizations = node.finalizations
  state : ∀ later ∈ after.state, later = moveToNextHeight { state with decision := none } info

/-- **A finalization** moves on from a successful decision, restarts the height of a failed one, and
ends the process if there was none. -/
theorem finalized_cases (config : NodeConfig) (node : Node) (state : State)
    (certificate : CommitCertificate) (evidence : Option (List Byte)) :
    (∃ info, state.decision = some (.success info) ∧ MovesOn node state info certificate evidence
        (finalized config node state certificate evidence)) ∨
      (state.decision = some .failure ∧ finalized config node state certificate evidence =
        restartHeight (storeFinalized node certificate evidence) { state with decision := none }
          certificate.height) ∨
      (state.decision = none ∧ finalized config node state certificate evidence = node.down) := by
  unfold finalized
  cases state.decision with
  | none => exact .inr (.inr ⟨rfl, rfl⟩)
  | some taken =>
    cases taken with
    | failure => exact .inr (.inl ⟨rfl, rfl⟩)
    | success info =>
      refine .inl ⟨info, rfl, ?_⟩
      dsimp only
      split_ifs
      · refine ⟨rfl, rfl, fun later member => ?_⟩
        cases member
      · exact ⟨rfl, rfl, fun later member => (Option.some.inj member).symm⟩

section Restart

variable {db : AppDb} {height : Height} {payload : ExecutionPayload}

theorem getDecidedBlock_known (known : (getDecidedBlock db height).join.isSome = true) :
    ∃ payload stored, db.decidedBlocks.get height = some payload ∧
      db.certificates.get height = some stored ∧
      payload.blockHash = stored.certificate.valueId := by
  unfold getDecidedBlock at known
  cases found : db.decidedBlocks.get height with
  | none => simp [found] at known
  | some payload =>
    cases certified : db.certificates.get height with
    | none => simp [found, certified] at known
    | some stored =>
      by_cases agrees : payload.blockHash = stored.certificate.valueId
      · exact ⟨payload, stored, rfl, rfl, agrees⟩
      · simp [found, certified, DecidedBlock.new, agrees] at known

theorem getDecidedBlock_of_stored {stored : StoredCommitCertificate}
    (found : db.decidedBlocks.get height = some payload)
    (certified : db.certificates.get height = some stored)
    (agrees : payload.blockHash = stored.certificate.valueId) :
    ∃ block, getDecidedBlock db height = some (some block) ∧ block.executionPayload = payload := by
  refine ⟨⟨payload, stored.certificate, agrees⟩, ?_, rfl⟩
  unfold getDecidedBlock DecidedBlock.new
  simp only [found, certified, dif_pos agrees, Option.map_some]

/-- **A restart** fails on a store that contradicts itself, or it drops the rows up to its height
and begins the height again. -/
theorem restartHeight_cases (node : Node) (state : State) (height : Height) :
    restartHeight node state height = node.down ∨ ∃ previous, restartHeight node state height =
        { node with
          world.db := node.world.db.cleanStaleConsensusData height
          state := some { state.setValidatorSet state.validatorSet with
            currentHeight := height
            currentRound := .nil
            previousBlock := previous } } := by
  unfold restartHeight
  cases getDecidedBlock node.world.db (height.saturatingSub 1) with
  | none => exact .inl rfl
  | some previous => exact .inr ⟨_, rfl⟩

/-- **A restart that knows the previous block**: the height starts again from the block of the
decided payload below it. -/
theorem restartHeight_known {node : Node} {certificate : CommitCertificate}
    (known : (getDecidedBlock node.world.db (certificate.height.saturatingSub 1)).join.isSome = true)
    (evidence : Option (List Byte)) :
    ∃ payload, node.world.db.decidedBlocks.get (certificate.height.saturatingSub 1) = some payload ∧
      ∀ state : State, restartHeight (storeFinalized node certificate evidence) state
          certificate.height =
        { storeFinalized node certificate evidence with
          world.db := (storeFinalized node certificate evidence).world.db.cleanStaleConsensusData
            certificate.height
          state := some { state.setValidatorSet state.validatorSet with
            currentHeight := certificate.height
            currentRound := .nil
            previousBlock := some (.ofPayload payload) } } := by
  obtain ⟨payload, stored, found, certified, agrees⟩ := getDecidedBlock_known known
  have frame := finalizedFrame_storeFinalized node certificate evidence
  have values := frame.values (certificate.height.saturatingSub 1)
  rw [certified, Option.map_some] at values
  obtain ⟨later, there, same⟩ := Option.map_eq_some_iff.mp values
  obtain ⟨block, read, rfl⟩ := getDecidedBlock_of_stored (frame.decidedBlocks ▸ found) there
    (agrees.trans same.symm)
  refine ⟨block.executionPayload, found, fun state => ?_⟩
  unfold restartHeight
  rw [read]
  rfl

end Restart

end ArcNode.App
