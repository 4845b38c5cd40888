/-
**The node.**

A `Node` is what survives a crash (the database) and what does not (`State`, absent while the
process is down), with the calls of `finalize_decided_block` made so far. Its inputs are the
messages of the consensus engine, each with the answers the environment gives while it is handled,
and crashes: between two messages, in the middle of a round start, of a commit or of a finalization,
and after a proposed block is stored and before it is streamed. A handler that returns an error or
panics ends the process.
-/

import ArcNode.App.Handshake

namespace ArcNode.App

open ArcNode.Lib ArcNode.Types ArcNode.Store

/-! ### State -/

structure NodeConfig where
  prune : PruningConfig
  address : Address
  maxPendingProposals : ℕ
  maxPositive : 0 < maxPendingProposals
  haltHeight : Option Height

structure NextHeightInfo where
  nextHeight : Height
  validatorSet : ValidatorSet
  decidedBlock : ExecutionBlock
  deriving DecidableEq

/-- What became of the decided value. -/
inductive Decision where
  | success (info : NextHeightInfo)
  | failure
  deriving DecidableEq

/-- The state of a running node. -/
structure State where
  currentHeight : Height
  currentRound : Round
  validatorSet : ValidatorSet
  previousBlock : Option ExecutionBlock
  decision : Option Decision
  streams : PartStreamsMap
  streamNonce : Fin (2 ^ 32)

/-- A node; its state is `none` while the process is down. -/
structure Node where
  world : World
  finalizations : List Finalization
  state : Option State

def Node.new : Node := ⟨⟨∅, []⟩, [], none⟩

def Node.down (node : Node) : Node := { node with state := none }

def State.context (config : NodeConfig) (state : State) (localTime : Option (Fin (2 ^ 64))) :
    HandlerContext where
  currentHeight := state.currentHeight
  currentRound := state.currentRound
  validatorSet := state.validatorSet
  maxPendingProposals := config.maxPendingProposals
  maxPositive := config.maxPositive
  previousBlock := state.previousBlock
  localTime := localTime

def State.setValidatorSet (state : State) (validatorSet : ValidatorSet) : State :=
  { state with
    streams := state.streams.setNumValidators validatorSet.length
    validatorSet := validatorSet }

/-! ### The start of the process -/

/-- `consensus_ready::handle`, on the state of a fresh process. -/
def consensusReady (engine : Engine) (config : NodeConfig) (node : Node) (layer : ExecutionLayer)
    (now : ℕ) : Node :=
  let (replayed, handshake) := handshakeAndReplay engine layer ⟨node.world, node.finalizations⟩
  let failed : Node := ⟨replayed.world, replayed.finalizations, none⟩
  match handshake with
  | none => failed
  | some result =>
    match enforcePendingProposalsLimit replayed.world.db config.maxPendingProposals
        result.nextHeight with
    | none => failed
    | some db =>
      match layer.validatorSet result.nextHeight with
      | none => { failed with world.db := db }
      | some validatorSet =>
        let fresh : State :=
          { currentHeight := result.nextHeight
            currentRound := .nil
            validatorSet := []
            previousBlock := some result.previousBlock
            decision := none
            streams := .new 0 0 now
            streamNonce := 0 }
        ⟨{ replayed.world with db := db }, replayed.finalizations,
          some (fresh.setValidatorSet validatorSet)⟩

/-! ### Rounds -/

section Rounds

variable (E : Externals) (engine : Engine) (config : NodeConfig)

/-- The state of a new round; `none` is a failed assertion. -/
def enterRound (state : State) (height : Height) (round : Round) : Option State :=
  let started := if round.asI64 = 0 then
    { state with streams := state.streams.setCurrentHeight height } else state
  if started.currentHeight = height ∧ round ≠ .nil ∧ started.currentRound ≤ round then
    some { started with currentRound := round }
  else none

/-- `started_round::handle`; no state is the end of the process. -/
def startedRound (world : World) (state : State) (height : Height) (round : Round)
    (localTime : Option (Fin (2 ^ 64))) : World × Option State :=
  match enterRound state height round with
  | none => (world, none)
  | some entered =>
    match fetchAndProcessPendingProposals E engine (entered.context config localTime) world height
        round with
    | none => (world, none)
    | some (after, _) => (after, some entered)

/-- A round start that is cut off after some turns of its two loops. -/
def interruptedRound (world : World) (state : State) (height : Height) (round : Round)
    (turns : ℕ) : World :=
  match enterRound state height round with
  | none => world
  | some entered =>
    let pending := getPendingProposalParts world.db height round
    match processPendingProposalParts E engine (entered.context config none) world
        (pending.take turns) with
    | none => world
    | some processed =>
      (validateUndecidedBlocks engine (entered.context config none) processed
        (((getUndecidedBlocks processed.db height round).getD []).take (turns - pending.length))).1

end Rounds

/-! ### Proposing -/

/-- What the engine answers to a request for a payload. -/
inductive BuildAnswer where
  | built (payload : ExecutionPayload)
  | timedOut
  | failed

/-- How `on_get_value` ends. -/
inductive GetValueOutcome where
  | failed
  | declined
  | proposed (messages : List StreamMessage)

/-- `State::next_stream_id`, with the state that used the nonce; `none` is the panic on nil. -/
def nextStreamId (state : State) (height : Height) : Round → Option (StreamId × State)
  | .nil => none
  | .some round =>
    some (newStreamId height round state.streamNonce,
      { state with streamNonce := state.streamNonce + 1 })

section Proposing

variable (E : Externals) (engine : Engine) (signBytes : BlockHash → Option Signature)

/-- `get_previously_built_block`; `none` is the error of the scan or the one on more than one
block. -/
def getPreviouslyBuiltBlock (db : AppDb) (proposer : Address) (height : Height) (round : Round) :
    Option (Option ConsensusBlock) := do
  let blocks ← getUndecidedBlocks db height round
  match blocks.filter fun block => block.proposer = proposer with
  | [] => some none
  | [block] => some (some block)
  | _ => none

variable (world : World)

/-- `build_and_validate_block`, on the payload the engine built; `none` is an error. -/
def buildAndValidateBlock (height : Height) (round : Round) (proposer : Address)
    (previousBlock : ExecutionBlock) (payload : ExecutionPayload) :
    World × Option ConsensusBlock :=
  let block : ConsensusBlock := ⟨height, round, .nil, proposer, .valid, payload, none⟩
  match checkPayloadBinding payload height (some previousBlock) with
  | .error _ => (world, none)
  | .ok _ =>
    let (after, validity) := validateConsensusBlock engine world block
    (after, if validity = some .valid then some block else none)

/-- The end of `on_get_value`: the block is signed, stored and streamed. -/
def proposeBlock (streamId : StreamId) (block : ConsensusBlock) : World × GetValueOutcome :=
  match prepareStream E signBytes streamId block with
  | none => (world, .failed)
  | some (messages, signature) =>
    ({ world with
        db := storeUndecidedBlock world.db { block with signature := some signature } },
      .proposed messages)

/-- `on_get_value`: a block built before is proposed again. -/
def onGetValue (streamId : StreamId) (height : Height) (round : Round)
    (address : Address) (previousBlock : Option ExecutionBlock) (answer : BuildAnswer) :
    World × GetValueOutcome :=
  match getPreviouslyBuiltBlock world.db address height round with
  | none => (world, .failed)
  | some (some block) =>
    if Bound block.executionPayload height previousBlock then
      proposeBlock E signBytes world streamId block
    else (world, .failed)
  | some none =>
    match previousBlock, answer with
    | none, _ => (world, .failed)
    | some previous, answer =>
      if previous.blockNumber.increment ≠ some height then (world, .failed)
      else
        match answer with
        | .failed => (world, .failed)
        | .timedOut => (world, .declined)
        | .built payload =>
          match buildAndValidateBlock engine world height round address previous payload with
          | (after, none) => (after, .failed)
          | (after, some block) => proposeBlock E signBytes after streamId block

/-- `get_value::handle`, with what is published; no state is the end of the process. -/
def getValue (config : NodeConfig) (world : World) (state : State) (height : Height)
    (round : Round) (answer : BuildAnswer) : World × Option State × List StreamMessage :=
  match nextStreamId state height round with
  | none => (world, none, [])
  | some (streamId, used) =>
    match onGetValue E engine signBytes world streamId height round config.address
        state.previousBlock answer with
    | (after, .failed) => (after, none, [])
    | (after, .declined) => (after, some used, [])
    | (after, .proposed messages) => (after, some used, messages)

/-- `restream_proposal::handle`: a block is streamed again only with its own signature. -/
def restreamProposal (state : State) (height : Height) (valueId : BlockHash) :
    Option State × List StreamMessage :=
  match getUndecidedBlockByHeightAndBlockHash world.db height valueId with
  | none => (none, [])
  | some block =>
    match nextStreamId state block.height block.round with
    | none => (none, [])
    | some (streamId, used) =>
      if block.signature.isNone then (none, [])
      else
        match prepareStream E signBytes streamId block with
        | none => (none, [])
        | some (messages, _) => (some used, messages)

end Proposing

/-! ### Decisions -/

/-- What the environment answers while a decision is handled. -/
structure DecidedAnswers where
  /-- The engine finalizes the payload. -/
  finalizes : Bool
  /-- The validators of the next height; `none` is an error. -/
  validatorSet : Option ValidatorSet

section Decisions

variable (config : NodeConfig)

variable (node : Node) (state : State) (certificate : CommitCertificate)

/-- `decided::handle`. -/
def decided (answers : DecidedAnswers) : Node :=
  match Decided.decide config.prune node.world.db certificate state.previousBlock
      answers.finalizes with
  | none => node.down
  | some outcome =>
    let after : Node :=
      ⟨{ node.world with db := outcome.db }, node.finalizations ++ outcome.finalizations, none⟩
    match outcome.result with
    | .ok block =>
      match certificate.height.increment, answers.validatorSet with
      | some nextHeight, some validatorSet =>
        { after with
          state := some { state with decision := some (.success ⟨nextHeight, validatorSet, block⟩) } }
      | _, _ => after
    | .error (.unbound _) => after
    | .error _ => { after with state := some { state with decision := some .failure } }

/-- Where a commit is cut off. -/
inductive CommitStop where
  | stored
  | cleaned
  | finalizing
  | certificatesPruned

variable (db : AppDb)

/-- The database and the calls of a commit that is cut off. -/
def commitUntil (certificate : CommitCertificate) (block : ConsensusBlock)
    (stop : CommitStop) : AppDb × List Finalization :=
  let stored := db.insertDecidedBlock certificate.height ⟨certificate, .minimal, some block.proposer⟩
    block.executionPayload
  let cleaned := stored.cleanStaleConsensusData certificate.height
  match stop with
  | .stored => (stored, [])
  | .cleaned => (cleaned, [])
  | .finalizing => (cleaned, [⟨certificate.height, block.executionPayload⟩])
  | .certificatesPruned =>
    (pruneHistoricalCerts config.prune cleaned certificate.height,
      [⟨certificate.height, block.executionPayload⟩])

/-- A decision whose commit is cut off. -/
def interruptedCommit (stop : CommitStop) : Node :=
  match getUndecidedBlockByHeightAndBlockHash node.world.db certificate.height
      certificate.valueId with
  | none => node.down
  | some block =>
    if Decided.Usable certificate state.previousBlock block ∧
        block.executionPayload.blockHash = certificate.valueId then
      let (db, calls) := commitUntil config node.world.db certificate block stop
      ⟨{ node.world with db := db }, node.finalizations ++ calls, none⟩
    else node.down

variable (height : Height)

/-- `get_decided_block`: payload and certificate; the outer `none` is the failed assertion. -/
def getDecidedBlock : Option (Option DecidedBlock) :=
  match db.decidedBlocks.get height, db.certificates.get height with
  | some payload, some stored => (DecidedBlock.new payload stored.certificate).map some
  | _, _ => some none

/-- `extend_certificate`; an extension that is refused is only logged. -/
def extendCertificate (certificate : CommitCertificate) : AppDb :=
  match db.certificates.get certificate.height with
  | none => db
  | some existing =>
    if certificate.height = existing.certificate.height ∧
        certificate.round = existing.certificate.round ∧
        certificate.valueId = existing.certificate.valueId ∧
        ∀ signature ∈ existing.certificate.commitSignatures,
          signature ∈ certificate.commitSignatures then
      { db with
        certificates := db.certificates.insert certificate.height
          ⟨certificate, .extended, existing.proposer⟩ }
    else db

/-- `store_misbehavior_evidence`, if there is evidence. -/
def storeMisbehaviorEvidence (evidence : Option (List Byte)) : AppDb :=
  match evidence with
  | none => db
  | some bytes => { db with misbehaviorEvidence := db.misbehaviorEvidence.insert height bytes }

def moveToNextHeight (info : NextHeightInfo) : State :=
  { state.setValidatorSet info.validatorSet with
    currentHeight := info.nextHeight
    currentRound := .nil
    previousBlock := some info.decidedBlock }

/-- `State::restart_height`: the previous block is read back from the store. -/
def restartHeight : Node :=
  match getDecidedBlock node.world.db (height.saturatingSub 1) with
  | none => node.down
  | some previous =>
    { node with
      world.db := node.world.db.cleanStaleConsensusData height
      state := some { state.setValidatorSet state.validatorSet with
        currentHeight := height
        currentRound := .nil
        previousBlock := previous.map fun block => .ofPayload block.executionPayload } }

/-- The writes of `finalized::handle` before the next height is chosen. -/
def storeFinalized (evidence : Option (List Byte)) : Node :=
  { node with
    world.db := extendCertificate
      (storeMisbehaviorEvidence node.world.db certificate.height evidence) certificate }

/-- `finalized::handle`. -/
def finalized (node : Node) (state : State) (certificate : CommitCertificate)
    (evidence : Option (List Byte)) : Node :=
  let taken := { state with decision := none }
  match state.decision with
  | none => node.down
  | some (.success info) =>
    let after := storeFinalized node certificate evidence
    if config.haltHeight = some info.nextHeight then after.down
    else { after with state := some (moveToNextHeight taken info) }
  | some .failure => restartHeight (storeFinalized node certificate evidence) taken certificate.height

end Decisions

/-! ### The machine -/

/-- A message of the consensus engine, or a crash. -/
inductive NodeInput where
  | consensusReady (layer : ExecutionLayer) (now : ℕ)
  | startedRound (height : Height) (round : Round) (localTime : Option (Fin (2 ^ 64)))
  | getValue (height : Height) (round : Round) (answer : BuildAnswer)
  | restreamProposal (height : Height) (valueId : BlockHash)
  | receivedProposalPart (delivery : Delivery) (localTime : Option (Fin (2 ^ 64)))
  | processSyncedValue (height : Height) (round : Round) (proposer : Address)
      (valueBytes : List Byte)
  | decided (certificate : CommitCertificate) (answers : DecidedAnswers)
  | finalized (certificate : CommitCertificate) (evidence : Option (List Byte))
  | crash
  | crashInRound (height : Height) (round : Round) (turns : ℕ)
  | crashInGetValue (height : Height) (round : Round) (answer : BuildAnswer)
  | crashInCommit (certificate : CommitCertificate) (stop : CommitStop)
  | crashInFinalized (certificate : CommitCertificate) (evidence : Option (List Byte))

section Machine

variable (E : Externals) (engine : Engine) (signBytes : BlockHash → Option Signature)
  (config : NodeConfig)

/-- One event of a running node. -/
def runningStep (node : Node) (state : State) : NodeInput → Node × List StreamMessage
  | .consensusReady _ _ => (node, [])
  | .startedRound height round localTime =>
    let (world, after) := startedRound E engine config node.world state height round localTime
    ({ node with world := world, state := after }, [])
  | .getValue height round answer =>
    let (world, after, messages) :=
      getValue E engine signBytes config node.world state height round answer
    ({ node with world := world, state := after }, messages)
  | .restreamProposal height valueId =>
    let (after, messages) := restreamProposal E signBytes node.world state height valueId
    ({ node with state := after }, messages)
  | .receivedProposalPart delivery localTime =>
    let (streams, world, _) := onReceivedProposalPart E engine (state.context config localTime)
      state.streams node.world delivery
    ({ node with world := world, state := some { state with streams := streams } }, [])
  | .processSyncedValue height round proposer valueBytes =>
    let (world, _) := onProcessSyncedValue E engine (state.context config none) node.world height
      round proposer valueBytes
    ({ node with world := world }, [])
  | .decided certificate answers => (decided config node state certificate answers, [])
  | .finalized certificate evidence => (finalized config node state certificate evidence, [])
  | .crash => (node.down, [])
  | .crashInRound height round turns =>
    ({ node with
        world := interruptedRound E engine config node.world state height round turns
        state := none }, [])
  | .crashInGetValue height round answer =>
    ({ node with
        world := (getValue E engine signBytes config node.world state height round answer).1
        state := none }, [])
  | .crashInCommit certificate stop => (interruptedCommit config node state certificate stop, [])
  | .crashInFinalized certificate evidence =>
    (if state.decision.isSome then (storeFinalized node certificate evidence).down else node.down,
      [])

/-- One input of the node, with the messages it publishes. A process that is down only starts. -/
def nodeStep (node : Node) (input : NodeInput) : Node × List StreamMessage :=
  match node.state with
  | some state => runningStep E engine signBytes config node state input
  | none =>
    match input with
    | .consensusReady layer now => (consensusReady engine config node layer now, [])
    | _ => (node, [])

end Machine

end ArcNode.App
