/-
**The handshake at the start of the node.**

When consensus is ready the application compares its latest certificate with the head of the
execution layer. An execution layer that is ahead is an error; one that is behind gets the decided
payloads of the missing heights again (`replayBlock`), and if a payload is gone it is told to sync
to the latest certified block (`checkpointSync`). The position from which consensus continues is the
last block of that walk (`HandshakeResult`).
-/

import ArcNode.App.Decided

namespace ArcNode.App

open ArcNode.Lib ArcNode.Types ArcNode.Store

/-! ### The execution layer -/

inductive ForkchoiceStatus where
  | valid
  | syncing
  | other
  deriving DecidableEq

/-- What the execution layer answers during one start of the node. -/
structure ExecutionLayer where
  /-- `check_capabilities`. -/
  capable : Bool
  /-- The block at the tag `Latest`; `none` is an error or no block. -/
  latestBlock : Option ExecutionBlock
  /-- Whether the forkchoice update of a replayed height succeeds. -/
  finalizes : Height → Bool
  /-- The forkchoice update to a checkpoint; `none` is an error. -/
  forkchoice : BlockHash → Option ForkchoiceStatus
  /-- The answers to successive queries of a block number, until the timeout; `none` is an error. -/
  blockByNumber : Height → List (Option (Option ExecutionBlock))
  /-- `get_signing_validator_set`; `none` is an error. -/
  validatorSet : Height → Option ValidatorSet

/-- The polling loop of `checkpoint_sync`; `none` is an error or the timeout. -/
def pollUntilSynced (targetBlockHash : BlockHash) :
    List (Option (Option ExecutionBlock)) → Option ExecutionBlock
  | [] => none
  | none :: _ => none
  | some none :: rest => pollUntilSynced targetBlockHash rest
  | some (some block) :: _ => if block.blockHash = targetBlockHash then some block else none

/-- `checkpoint_sync`; `none` is an error. -/
def checkpointSync (layer : ExecutionLayer) (targetBlockHash : BlockHash)
    (targetBlockHeight : Height) : Option ExecutionBlock :=
  match layer.forkchoice targetBlockHash with
  | some .syncing => pollUntilSynced targetBlockHash (layer.blockByNumber targetBlockHeight)
  | some .valid => ((layer.blockByNumber targetBlockHeight).head?.join).join
  | _ => none

/-! ### Replay -/

/-- What the replay acts on: the world, and the calls of `finalize_decided_block` so far. -/
structure Replay where
  world : World
  finalizations : List Finalization

/-- `ReplayBlockError`, with the causes of its `Other`. -/
inductive ReplayBlockError where
  | payloadMissing (height : Height)
  | unbound (error : PayloadBindingError)
  | notValidated
  | invalid (reason : String)
  | notFinalized
  deriving DecidableEq

section Replay

variable (engine : Engine) (layer : ExecutionLayer)

variable (state : Replay)

def Replay.ask (payload : ExecutionPayload) : Replay × EngineAnswer :=
  let answer := engine state.world.calls.length payload
  ({ state with world.calls := state.world.calls ++ [(payload, answer)] }, answer)

def replayBlock (height : Height) (previousBlock : ExecutionBlock) :
    Replay × Except ReplayBlockError ExecutionBlock :=
  match state.world.db.decidedBlocks.get height with
  | none => (state, .error (.payloadMissing height))
  | some payload =>
    match checkPayloadBinding payload height (some previousBlock) with
    | .error error => (state, .error (.unbound error))
    | .ok _ =>
      let (asked, answer) := state.ask engine payload
      match validatePayload answer with
      | none => (asked, .error .notValidated)
      | some (.invalid reason) => (asked, .error (.invalid reason))
      | some .valid =>
        ({ asked with finalizations := asked.finalizations ++ [⟨height, payload⟩] },
          if layer.finalizes height then .ok (.ofPayload payload) else .error .notFinalized)

/-- The loop of `handshake_and_replay` over the heights that are missing; `none` is an error or the
panic of a height that overflows. -/
def replayMissing (latestHeightCons : Height) :
    ℕ → Replay → Height → ExecutionBlock → Replay × Option ExecutionBlock
  | 0, state, _, latestBlock => (state, some latestBlock)
  | missing + 1, state, replayHeight, latestBlock =>
    match replayBlock engine layer state replayHeight latestBlock with
    | (after, .ok block) =>
      match replayHeight.increment with
      | none => (after, none)
      | some next => replayMissing latestHeightCons missing after next block
    | (after, .error (.payloadMissing _)) =>
      (after, (after.world.db.certificates.get latestHeightCons).bind fun stored =>
        checkpointSync layer stored.certificate.valueId latestHeightCons)
    | (after, .error _) => (after, none)

structure HandshakeResult where
  previousBlock : ExecutionBlock
  latestHeight : Height
  nextHeight : Height
  deriving DecidableEq

/-- `handshake_and_replay`; `none` is an error or a panic. -/
def handshakeAndReplay : Replay × Option HandshakeResult :=
  let latestHeightCons := state.world.db.maxHeight.getD 0
  match layer.capable, layer.latestBlock with
  | true, some head =>
    if latestHeightCons < head.blockNumber then (state, none)
    else
      match head.blockNumber.increment with
      | none => (state, none)
      | some replayHeight =>
        let (after, latestBlock) := replayMissing engine layer latestHeightCons
          (latestHeightCons.val - head.blockNumber.val) state replayHeight head
        (after, do
          let previousBlock ← latestBlock
          let nextHeight ← previousBlock.blockNumber.increment
          some ⟨previousBlock, latestHeightCons, nextHeight⟩)
  | _, _ => (state, none)

end Replay

/-- `enforce_pending_proposals_limit`; `none` is the panic of a height that overflows. -/
def enforcePendingProposalsLimit (db : AppDb) (maxPendingProposals : ℕ) (currentHeight : Height) :
    Option AppDb := do
  let maxAllowedHeight ← currentHeight.incrementBy (maxPendingProposals - 1)
  let withinRange := db.pendingProposalParts.keys.filter fun key =>
    currentHeight ≤ key.height ∧ key.height ≤ maxAllowedHeight
  let kept := withinRange.take maxPendingProposals
  some { db with
    pendingProposalParts := db.pendingProposalParts.retain fun key _ => key ∈ kept }

end ArcNode.App
