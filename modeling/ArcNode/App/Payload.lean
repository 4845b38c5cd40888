/-
**Verdicts on payloads.**

A block from the network gets its verdict in two stages (`establishBlockValidity`): the binding
rules ask whether its payload belongs at its height (`checkPayloadBinding`), and only a payload that
keeps them is sent to the execution engine (`validateConsensusBlock`). The engine is a parameter
`ℕ → ExecutionPayload → EngineAnswer` that may answer the `n`-th call as it likes. **`established`**
says all that a caller needs: which verdict comes back and from which rule, which calls were made,
and that only forensic records are written.
-/

import ArcNode.Store.Db
import ArcNode.App.ProposalParts

namespace ArcNode.App

open ArcNode.Lib ArcNode.Types ArcNode.Store

/-! ### The database of the application -/

/-- The values of the tables; evidence and monitor records are opaque bytes. -/
abbrev AppSchema : Schema :=
  ⟨StoredCommitCertificate, ExecutionPayload, StoredInvalidPayloads, List Byte, List Byte,
    ConsensusBlock, ProposalParts⟩

abbrev AppDb := Db AppSchema

/-- `append_invalid_payload`, to those of its height. -/
def appendInvalidPayload (db : AppDb) (invalid : InvalidPayload) : AppDb :=
  let stored := (db.invalidPayloads.get invalid.height).getD ⟨invalid.height, []⟩
  { db with
    invalidPayloads := db.invalidPayloads.insert invalid.height
      { stored with payloads := stored.payloads ++ [invalid] } }

def storeUndecidedBlock (db : AppDb) (block : ConsensusBlock) : AppDb :=
  { db with undecidedBlocks := db.undecidedBlocks.insert block.key block }

/-! ### Answers of the engine -/

structure EngineApiRpcError where
  code : ℤ
  message : String
  data : Option String
  deriving DecidableEq

def EngineApiRpcError.isInternalError (error : EngineApiRpcError) : Bool := error.code = -32603

/-- The text of an engine error. -/
def EngineApiRpcError.text (error : EngineApiRpcError) : String :=
  match error.data with
  | some data => "Code " ++ toString error.code ++ ": " ++ error.message ++ ": " ++ data
  | none => "Code " ++ toString error.code ++ ": " ++ error.message

/-- What the engine answers to `newPayload`. -/
inductive EngineAnswer where
  | valid
  | invalid (validationError : String)
  | syncing
  | accepted
  | rpcError (error : EngineApiRpcError)
  | transportError
  deriving DecidableEq

inductive PayloadValidationResult where
  | valid
  | invalid (reason : String)
  deriving DecidableEq

/-- `validate_payload`, on the engine's answer; `none` is the error without a verdict. -/
def validatePayload : EngineAnswer → Option PayloadValidationResult
  | .valid => some .valid
  | .invalid validationError => some (.invalid validationError)
  | .syncing => none
  | .accepted => none
  | .rpcError error => if error.isInternalError then none else some (.invalid error.text)
  | .transportError => none

def PayloadValidationResult.validity : PayloadValidationResult → Validity
  | valid => .valid
  | invalid _ => .invalid

/-- The engine: the answer to the `n`-th call, on a payload. -/
abbrev Engine := ℕ → ExecutionPayload → EngineAnswer

/-- What the handlers act on: the database, and the engine calls made so far. -/
structure World where
  db : AppDb
  calls : List (ExecutionPayload × EngineAnswer)

/-- The answer to the call that is about to be made. -/
def World.nextAnswer (engine : Engine) (world : World) (block : ConsensusBlock) : EngineAnswer :=
  engine world.calls.length block.executionPayload

def World.ask (engine : Engine) (world : World) (block : ConsensusBlock) : World :=
  { world with
    calls := world.calls ++ [(block.executionPayload, world.nextAnswer engine block)] }

/-- `validate_consensus_block`: a rejected payload is recorded. -/
def validateConsensusBlock (engine : Engine) (world : World) (block : ConsensusBlock) :
    World × Option Validity :=
  match validatePayload (world.nextAnswer engine block) with
  | none => (world.ask engine block, none)
  | some .valid => (world.ask engine block, some .valid)
  | some (.invalid reason) =>
    ({ world.ask engine block with
        db := appendInvalidPayload world.db (.newFromBlock block reason) },
      some .invalid)

/-! ### The binding rules -/

/-- How a payload fails to fit its height. -/
inductive PayloadBindingError where
  | heightMismatch (expected actual : ℕ)
  | parentMismatch (expected actual : BlockHash)
  deriving DecidableEq

/-- A hash as text: 64 hexadecimal digits. -/
def hashText (hash : BlockHash) : String :=
  let digits := Nat.toDigits 16 hash.val
  "0x" ++ String.ofList (List.replicate (64 - digits.length) '0' ++ digits)

/-- The text of a binding error. -/
def PayloadBindingError.text : PayloadBindingError → String
  | heightMismatch expected actual =>
    "payload block number " ++ toString actual ++ " does not match consensus height " ++
      toString expected
  | parentMismatch expected actual =>
    "payload parent hash " ++ hashText actual ++
      " is not the block finalized at the previous height (" ++ hashText expected ++ ")"

/-- `check_payload_binding`; without a neighbour below, any parent will do. -/
def checkPayloadBinding (payload : ExecutionPayload) (height : Height)
    (previousBlock : Option ExecutionBlock) : Except PayloadBindingError Unit :=
  if payload.blockNumber.val ≠ height.val then
    .error (.heightMismatch height.val payload.blockNumber.val)
  else
    match previousBlock with
    | none => .ok ()
    | some previous =>
      if previous.blockNumber.increment ≠ some height then .ok ()
      else if payload.parentHash ≠ previous.blockHash then
        .error (.parentMismatch previous.blockHash payload.parentHash)
      else .ok ()

/-- The payload fits its height and the block below. -/
def Bound (payload : ExecutionPayload) (height : Height)
    (previousBlock : Option ExecutionBlock) : Prop :=
  checkPayloadBinding payload height previousBlock = .ok ()
  deriving Decidable

/-- **What the binding rules say**: the block number is the height, and the parent is the previous
block when that one sits exactly one height below. -/
theorem bound_iff {payload : ExecutionPayload} {height : Height}
    {previousBlock : Option ExecutionBlock} :
    Bound payload height previousBlock ↔ payload.blockNumber = height ∧
      ∀ previous, previousBlock = some previous → previous.blockNumber.increment = some height →
        payload.parentHash = previous.blockHash := by
  unfold Bound checkPayloadBinding
  by_cases number : payload.blockNumber = height
  · rw [if_neg (not_not.mpr (congrArg Height.val number))]
    cases previousBlock with
    | none => simp [number]
    | some previous =>
      by_cases near : previous.blockNumber.increment = some height
      · by_cases parent : payload.parentHash = previous.blockHash <;> simp [number, near, parent]
      · simp [number, near]
  · have differs : payload.blockNumber.val ≠ height.val := fun same => number (Height.ext same)
    simp [differs, number]

/-! ### Verdicts -/

/-- Who decided on a block: the binding rules or the engine. -/
inductive BlockVerdict where
  | unbound (error : PayloadBindingError)
  | engine (validity : Validity)
  deriving DecidableEq

def BlockVerdict.validity : BlockVerdict → Validity
  | unbound _ => .invalid
  | engine validity => validity

/-- `establish_block_validity`; `none` is the error without a verdict. -/
def establishBlockValidity (engine : Engine) (world : World) (block : ConsensusBlock)
    (previousBlock : Option ExecutionBlock) : World × Option BlockVerdict :=
  match checkPayloadBinding block.executionPayload block.height previousBlock with
  | .error error =>
    ({ world with db := appendInvalidPayload world.db (.newFromBlock block error.text) },
      some (.unbound error))
  | .ok _ =>
    let (after, verdict) := validateConsensusBlock engine world block
    (after, verdict.map .engine)

/-- **The verdict a block deserves**: invalid if it is not bound, and otherwise what the engine
says, if it says something conclusive. -/
def conclusiveVerdict (block : ConsensusBlock) (previousBlock : Option ExecutionBlock)
    (answer : EngineAnswer) : Option Validity :=
  if Bound block.executionPayload block.height previousBlock then
    (validatePayload answer).map PayloadValidationResult.validity
  else some .invalid

/-- Everything but the forensic records is the same. -/
structure SameTables (before after : AppDb) : Prop where
  certificates : after.certificates = before.certificates
  decidedBlocks : after.decidedBlocks = before.decidedBlocks
  undecidedBlocks : after.undecidedBlocks = before.undecidedBlocks
  pendingProposalParts : after.pendingProposalParts = before.pendingProposalParts

theorem SameTables.refl (db : AppDb) : SameTables db db := ⟨rfl, rfl, rfl, rfl⟩

theorem sameTables_appendInvalidPayload (db : AppDb) (invalid : InvalidPayload) :
    SameTables db (appendInvalidPayload db invalid) := ⟨rfl, rfl, rfl, rfl⟩

section Spec

variable {engine : Engine} {world : World} {block : ConsensusBlock}
  {previousBlock : Option ExecutionBlock}

theorem validateConsensusBlock_validity : (validateConsensusBlock engine world block).2 =
      (validatePayload (world.nextAnswer engine block)).map PayloadValidationResult.validity := by
  unfold validateConsensusBlock
  cases validatePayload (world.nextAnswer engine block) with
  | none => rfl
  | some result => cases result <;> rfl

theorem validateConsensusBlock_calls : (validateConsensusBlock engine world block).1.calls =
      world.calls ++ [(block.executionPayload, world.nextAnswer engine block)] := by
  unfold validateConsensusBlock
  cases validatePayload (world.nextAnswer engine block) with
  | none => rfl
  | some result => cases result <;> rfl

theorem validateConsensusBlock_sameTables :
    SameTables world.db (validateConsensusBlock engine world block).1.db := by
  unfold validateConsensusBlock
  cases validatePayload (world.nextAnswer engine block) with
  | none => exact .refl _
  | some result =>
    cases result with
    | valid => exact .refl _
    | invalid reason => exact sameTables_appendInvalidPayload _ _

theorem establishBlockValidity_of_bound
    (bound : Bound block.executionPayload block.height previousBlock) :
    establishBlockValidity engine world block previousBlock =
      ((validateConsensusBlock engine world block).1,
        (validateConsensusBlock engine world block).2.map .engine) := by
  unfold establishBlockValidity
  rw [bound]

theorem establishBlockValidity_of_not_bound (engine : Engine) (world : World)
    (unbound : ¬ Bound block.executionPayload block.height previousBlock) :
    ∃ error, establishBlockValidity engine world block previousBlock =
      ({ world with db := appendInvalidPayload world.db (.newFromBlock block error.text) },
        some (.unbound error)) := by
  unfold establishBlockValidity
  cases checked : checkPayloadBinding block.executionPayload block.height previousBlock with
  | error error => exact ⟨error, rfl⟩
  | ok passed => exact absurd checked unbound

/-- **What establishing a verdict does**: the verdict is the one the block deserves and names its
rule, the engine is asked exactly when the block is bound, and only forensic records are written. -/
structure Established (engine : Engine) (world : World) (block : ConsensusBlock)
    (previousBlock : Option ExecutionBlock) (after : World) (verdict : Option BlockVerdict) :
    Prop where
  tables : SameTables world.db after.db
  calls : after.calls = if Bound block.executionPayload block.height previousBlock then
      world.calls ++ [(block.executionPayload, world.nextAnswer engine block)]
    else world.calls
  validity : verdict.map BlockVerdict.validity =
    conclusiveVerdict block previousBlock (world.nextAnswer engine block)
  rule : ∀ found, verdict = some found → ((∃ error, found = .unbound error) ↔
      ¬ Bound block.executionPayload block.height previousBlock)

theorem established (engine : Engine) (world : World) (block : ConsensusBlock)
    (previousBlock : Option ExecutionBlock) :
    Established engine world block previousBlock
      (establishBlockValidity engine world block previousBlock).1
      (establishBlockValidity engine world block previousBlock).2 := by
  by_cases bound : Bound block.executionPayload block.height previousBlock
  · rw [establishBlockValidity_of_bound bound]
    refine ⟨validateConsensusBlock_sameTables, ?_, ?_, ?_⟩
    · rw [if_pos bound]
      exact validateConsensusBlock_calls
    · rw [conclusiveVerdict, if_pos bound, ← validateConsensusBlock_validity, Option.map_map]
      exact Option.map_id'
    · intro found same
      obtain ⟨validity, -, rfl⟩ := Option.map_eq_some_iff.mp same
      simp [bound]
  · obtain ⟨error, same⟩ := establishBlockValidity_of_not_bound engine world bound
    rw [same]
    refine ⟨sameTables_appendInvalidPayload _ _, ?_, ?_, ?_⟩
    · rw [if_neg bound]
    · rw [conclusiveVerdict, if_neg bound]
      rfl
    · intro found equal
      rw [← Option.some.inj equal]
      simp [bound]

end Spec

end ArcNode.App
