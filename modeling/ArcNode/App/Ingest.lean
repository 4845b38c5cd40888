/-
**How blocks enter the undecided table.**

Four paths lead into the table: proposal parts completed live (`handleCompleteParts`), parts kept
for a future round (`processPendingProposalParts`), values sent by sync (`onProcessSyncedValue`) and
the re-validation of stored rows at the start of a round (`validateUndecidedBlocks`). The two loops
are folds of one turn each, and `ingestStep` is the machine whose steps are single ingestions.
-/

import ArcNode.App.Payload
import ArcNode.App.Delivery

namespace ArcNode.App

open ArcNode.Lib ArcNode.Types ArcNode.Store

/-- What a handler reads of the node besides its store. -/
structure HandlerContext where
  currentHeight : Height
  currentRound : Round
  validatorSet : ValidatorSet
  maxPendingProposals : ℕ
  maxPositive : 0 < maxPendingProposals
  previousBlock : Option ExecutionBlock
  /-- `local_time_secs`; `none` is a clock before the epoch. -/
  localTime : Option (Fin (2 ^ 64))

/-! ### The clock-skew gate -/

/-- `ARC_PROPOSER_CLOCK_SKEW_THRESHOLD_SECS`. -/
def clockSkewThreshold : ℕ := 30

/-- The header lies too far in the future. -/
def headerTimestampExceedsSkew (headerTimestamp localTime : Fin (2 ^ 64)) : Bool :=
  min (localTime.val + clockSkewThreshold) (2 ^ 64 - 1) < headerTimestamp.val

/-- `skew_gate::apply`. -/
def skewGate (executionValidity : Validity) (headerTimestamp localTime : Fin (2 ^ 64)) : Validity :=
  if executionValidity.isValid && headerTimestampExceedsSkew headerTimestamp localTime then .invalid
  else executionValidity

/-- The validity that is reported, behind the gate if there is a clock. -/
def validityFor (block : ConsensusBlock) (localTime : Option (Fin (2 ^ 64))) : Validity :=
  match localTime with
  | none => block.validity
  | some now => skewGate block.validity block.executionPayload.timestamp now

/-! ### Pending parts -/

variable (E : Externals) (db : AppDb)

/-- `insert_pending_proposal_parts`; `none` is the panic of a height that overflows. -/
def insertPendingProposalParts (parts : ProposalParts)
    (maxPendingParts : ℕ) (currentHeight : Height) : Option (AppDb × Bool) := do
  let maxAllowedHeight ← currentHeight.incrementBy (maxPendingParts - 1)
  if maxAllowedHeight < parts.height then some (db, false)
  else if db.pendingProposalParts.len < maxPendingParts then
    some ({ db with
      pendingProposalParts := db.pendingProposalParts.insert (parts.pendingKey E.keccak) parts },
      true)
  else some (db, false)

/-- `maybe_store_pending_proposal`, for heights within reach. -/
def maybeStorePendingProposal (ctx : HandlerContext) (db : AppDb)
    (parts : ProposalParts) : Option (AppDb × Bool) := do
  let maxFutureHeight ← ctx.currentHeight.incrementBy (ctx.maxPendingProposals - 1)
  if maxFutureHeight < parts.height then some (db, false)
  else insertPendingProposalParts E db parts ctx.maxPendingProposals ctx.currentHeight

variable (height : Height) (round : Round)

/-- The pending parts of a round. -/
def getPendingProposalParts : List ProposalParts :=
  (db.pendingProposalParts.entries.filter fun entry =>
    entry.1.height = height ∧ entry.1.round = round).map Prod.snd

/-- The loop of `get_undecided_blocks` over its range of keys, up to the next round; `none` is the
assertion of `Round::from`, which fails after the last round. -/
def undecidedRows : Option (List (BlockKey × ConsensusBlock)) := do
  let next ← Round.ofI64 (round.asI64 + 1)
  some ((db.undecidedBlocks.entries.filter fun entry => BlockKey.mk height round 0 ≤ entry.1 ∧
      entry.1 < BlockKey.mk height next 0).filter fun entry =>
    entry.1.height = height ∧ entry.1.round = round)

def getUndecidedBlocks : Option (List ConsensusBlock) :=
  (undecidedRows db height round).map fun rows => rows.map Prod.snd

def removePendingPartsAndStoreUndecidedBlock (parts : ProposalParts)
    (block : ConsensusBlock) : AppDb :=
  storeUndecidedBlock
    { db with
      pendingProposalParts := db.pendingProposalParts.remove (parts.pendingKey E.keccak) } block

/-! ### Live parts -/

/-- What became of the parts of a proposal. -/
inductive PartsOutcome where
  | block (block : ConsensusBlock)
  | storedPending
  | ignoredPastHeight
  | rejectedInvalid
  | assemblyFailed
  | deferred
  deriving DecidableEq

def PartsOutcome.isTerminal : PartsOutcome → Bool
  | deferred => false
  | _ => true

/-- What the handler answers for them. -/
inductive Disposition where
  | assembled (value : ProposedValue)
  | bufferedPending (height : Height)
  | terminal
  | deferred
  deriving DecidableEq

def Disposition.reported : Disposition → Option ProposedValue
  | assembled value => some value
  | _ => none

section Live

variable (E : Externals) (engine : Engine) (ctx : HandlerContext)

/-- `process_proposal_parts`; `none` is a panic. -/
def processProposalParts (db : AppDb) (parts : ProposalParts) : Option (AppDb × PartsOutcome) :=
  if parts.height < ctx.currentHeight then some (db, .ignoredPastHeight)
  else if ctx.currentHeight < parts.height ∨ ctx.currentRound < parts.round then do
    let (stored, kept) ← maybeStorePendingProposal E ctx db parts
    some (stored, if kept then .storedPending else .deferred)
  else do
    let expectedProposer ← resolveExpectedProposer ctx.validatorSet parts
    if validateProposalParts E parts expectedProposer then
      match assembleBlockFromParts E parts with
      | .ok block => some (db, .block block)
      | .error error =>
        some (appendInvalidPayload db (.newFromParts parts error), .assemblyFailed)
    else some (db, .rejectedInvalid)

/-- The end of `handle_complete_parts`: the block is validated, guarded and stored. -/
def storeLiveBlock (world : World) (block : ConsensusBlock) : World × Option Disposition :=
  let (after, verdict) := establishBlockValidity engine world block ctx.previousBlock
  match verdict with
  | none => (after, none)
  | some verdict =>
    let validated := { block with validity := verdict.validity }
    if validated.mayBeStoredAsUndecided E.canonicalBlockHash then
      ({ after with db := storeUndecidedBlock after.db validated },
        some (.assembled (validated.toProposedValueWithValidity
          (validityFor validated ctx.localTime))))
    else (after, some .terminal)

/-- What `handle_complete_parts` makes of the outcome; `none` inside is an error. -/
def concludeParts (world : World) (parts : ProposalParts) :
    AppDb × PartsOutcome → World × Option Disposition
  | (db, .block block) => storeLiveBlock E engine ctx { world with db := db } block
  | (db, .storedPending) =>
    ({ world with db := db }, some (if ctx.currentHeight < parts.height ∧ parts.round.asI64 = 0 then
        .bufferedPending parts.height else .terminal))
  | (db, outcome) =>
    ({ world with db := db }, some (if outcome.isTerminal then .terminal else .deferred))

/-- `handle_complete_parts`; `none` is an error or a panic. -/
def handleCompleteParts (world : World) (parts : ProposalParts) : World × Option Disposition :=
  match processProposalParts E ctx world.db parts with
  | none => (world, none)
  | some outcome => concludeParts E engine ctx world parts outcome

/-- `on_received_proposal_part`: the streams and the world after one message. -/
def onReceivedProposalPart (streams : PartStreamsMap) (world : World) (delivery : Delivery) :
    PartStreamsMap × World × Option ProposedValue :=
  match receive streams delivery with
  | (inserted, .complete parts) =>
    let (after, disposition) := handleCompleteParts E engine ctx world parts
    (if disposition = some .deferred then inserted else inserted.markClosed delivery.key, after,
      disposition.bind Disposition.reported)
  | (inserted, _) => (inserted, world, none)

end Live

/-! ### The start of a round -/

section Round

variable (E : Externals) (engine : Engine) (ctx : HandlerContext)

variable (world : World)

/-- One turn of the loop of `process_pending_proposal_parts`; `none` is a panic. -/
def processPendingPart (parts : ProposalParts) : Option World := do
  let expectedProposer ← resolveExpectedProposer ctx.validatorSet parts
  if validateProposalParts E parts expectedProposer then
    match assembleBlockFromParts E parts with
    | .error error =>
      some { world with db := appendInvalidPayload world.db (.newFromParts parts error) }
    | .ok block =>
      let (after, verdict) := establishBlockValidity engine world block ctx.previousBlock
      match verdict with
      | none => some after
      | some verdict =>
        some { after with
          db := removePendingPartsAndStoreUndecidedBlock E after.db parts
            { block with validity := verdict.validity } }
  else some world

def processPendingProposalParts (pending : List ProposalParts) : Option World :=
  pending.foldlM (processPendingPart E engine ctx) world

/-- One turn of the loop of `validate_undecided_blocks`: the world, and the block as reported. -/
def validateUndecidedBlock (block : ConsensusBlock) : World × ConsensusBlock :=
  match checkPayloadBinding block.executionPayload block.height ctx.previousBlock with
  | .error error =>
    if block.validity.isValid then
      let rejected := { block with validity := .invalid }
      ({ world with
          db := storeUndecidedBlock
            (appendInvalidPayload world.db (.newFromBlock rejected error.text)) rejected },
        rejected)
    else (world, block)
  | .ok _ =>
    let (after, verdict) := validateConsensusBlock engine world block
    match verdict with
    | none => (after, block)
    | some validity =>
      if validity ≠ block.validity then
        ({ after with db := storeUndecidedBlock after.db { block with validity := validity } },
          { block with validity := validity })
      else (after, block)

/-- `validate_undecided_blocks`, one after the other. -/
def validateUndecidedBlocks (world : World) : List ConsensusBlock → World × List ConsensusBlock
  | [] => (world, [])
  | block :: rest =>
    let (after, validated) := validateUndecidedBlock engine ctx world block
    let (final, others) := validateUndecidedBlocks after rest
    (final, validated :: others)

/-- `fetch_and_process_pending_proposals`; `none` is a panic. The scan runs in a task of its own:
its failed assertion is an error there, for which the handler reports no proposals. -/
def fetchAndProcessPendingProposals (height : Height) (round : Round) :
    Option (World × List ProposedValue) := do
  let processed ← processPendingProposalParts E engine ctx world
    (getPendingProposalParts world.db height round)
  let (after, blocks) := validateUndecidedBlocks engine ctx processed
    ((getUndecidedBlocks processed.db height round).getD [])
  some (after, blocks.map fun block =>
    block.toProposedValueWithValidity (validityFor block ctx.localTime))

end Round

/-! ### Synced values -/

section Sync

variable (E : Externals) (engine : Engine) (ctx : HandlerContext)

def syncedBlock (height : Height) (round : Round) (proposer : Address)
    (payload : ExecutionPayload) : ConsensusBlock where
  height := height
  round := round
  validRound := .nil
  proposer := proposer
  validity := .valid
  executionPayload := payload
  signature := none

/-- The end of `on_process_synced_value`: verdict, guard, de-duplication, store. -/
def storeSyncedBlock (world : World) (block : ConsensusBlock) :
    World × Option (Option ProposedValue) :=
  let (after, verdict) := establishBlockValidity engine world block ctx.previousBlock
  match verdict with
  | none => (after, none)
  | some verdict =>
    let validated := { block with validity := verdict.validity }
    if validated.mayBeStoredAsUndecided E.canonicalBlockHash then
      let existing := match verdict with
        | .unbound _ => none
        | .engine _ => after.db.undecidedBlocks.get validated.key
      match existing with
      | some existing => (after, some (some existing.toProposedValue))
      | none =>
        ({ after with db := storeUndecidedBlock after.db validated },
          some (some validated.toProposedValue))
    else (after, some none)

/-- `on_process_synced_value`; `none` is an error, `some none` a fault of the peer. -/
def onProcessSyncedValue (world : World) (height : Height) (round : Round) (proposer : Address)
    (valueBytes : List Byte) : World × Option (Option ProposedValue) :=
  match E.fromSszBytes valueBytes with
  | .error error =>
    ({ world with
        db := appendInvalidPayload world.db (.newWithoutPayload height round proposer error) },
      some none)
  | .ok payload =>
    storeSyncedBlock E engine ctx world (syncedBlock height round proposer payload)

end Sync

/-! ### The machine of single ingestions -/

/-- One ingestion: live parts, one turn over pending parts, a synced value, or one turn over a
stored row. -/
inductive IngestInput where
  | completeParts (ctx : HandlerContext) (parts : ProposalParts)
  | pendingParts (ctx : HandlerContext) (parts : ProposalParts)
  | syncedValue (ctx : HandlerContext) (height : Height) (round : Round) (proposer : Address)
      (valueBytes : List Byte)
  | undecidedBlock (ctx : HandlerContext) (key : BlockKey)

def IngestInput.ctx : IngestInput → HandlerContext
  | completeParts ctx _ => ctx
  | pendingParts ctx _ => ctx
  | syncedValue ctx _ _ _ _ => ctx
  | undecidedBlock ctx _ => ctx

section Machine

variable (E : Externals) (engine : Engine)

/-- One ingestion, with the value it reports to consensus. -/
def ingestStep (world : World) : IngestInput → World × Option ProposedValue
  | .completeParts ctx parts =>
    let (after, disposition) := handleCompleteParts E engine ctx world parts
    (after, disposition.bind Disposition.reported)
  | .pendingParts ctx parts => ((processPendingPart E engine ctx world parts).getD world, none)
  | .syncedValue ctx height round proposer valueBytes =>
    let (after, answer) := onProcessSyncedValue E engine ctx world height round proposer valueBytes
    (after, answer.join)
  | .undecidedBlock ctx key =>
    match world.db.undecidedBlocks.get key with
    | none => (world, none)
    | some block =>
      let (after, validated) := validateUndecidedBlock engine ctx world block
      (after, some (validated.toProposedValueWithValidity (validityFor validated ctx.localTime)))

end Machine

end ArcNode.App
