/-
**Payloads, blocks, certificates and proposal parts.**

The records the consensus application passes around. An `ExecutionPayload` keeps the fields the
application reads; `body` stands for the remaining fields, which it only hashes and encodes.
`ProposalParts` can only be built by `ProposalParts.new`, from exactly one `Init` and one `Fin`.
-/

import ArcNode.Types.Basic

namespace ArcNode.Types

open ArcNode.Lib

/-! ### Payloads and blocks -/

/-- `ExecutionPayloadV3`. -/
structure ExecutionPayload where
  parentHash : BlockHash
  blockNumber : Height
  timestamp : Fin (2 ^ 64)
  blockHash : BlockHash
  body : List Byte
  deriving DecidableEq

/-- What the application remembers of a finalized block. -/
structure ExecutionBlock where
  blockHash : BlockHash
  blockNumber : Height
  parentHash : BlockHash
  timestamp : Fin (2 ^ 64)
  deriving DecidableEq

/-- The finalized block of a payload. -/
def ExecutionBlock.ofPayload (payload : ExecutionPayload) : ExecutionBlock where
  blockHash := payload.blockHash
  blockNumber := payload.blockNumber
  parentHash := payload.parentHash
  timestamp := payload.timestamp

inductive Validity where
  | valid
  | invalid
  deriving DecidableEq

def Validity.isValid : Validity → Bool
  | valid => true
  | invalid => false

@[simp] theorem Validity.isValid_iff {validity : Validity} :
    validity.isValid = true ↔ validity = .valid := by
  cases validity <;> simp [isValid]

abbrev Signature := List Byte

/-- A proposed block that is not decided yet. -/
structure ConsensusBlock where
  height : Height
  round : Round
  validRound : Round
  proposer : Address
  validity : Validity
  executionPayload : ExecutionPayload
  signature : Option Signature
  deriving DecidableEq

/-- What the application reports to consensus about a block. -/
structure ProposedValue where
  height : Height
  round : Round
  proposer : Address
  validRound : Round
  value : BlockHash
  validity : Validity
  deriving DecidableEq

variable (block : ConsensusBlock)

namespace ConsensusBlock

/-- The hash the payload carries, not recomputed. -/
def selfReportedBlockHash : BlockHash := block.executionPayload.blockHash

/-- The key of the block in the undecided table. -/
def key : BlockKey :=
  ⟨block.height, block.round, block.selfReportedBlockHash⟩

def toProposedValueWithValidity (validity : Validity) : ProposedValue where
  height := block.height
  round := block.round
  proposer := block.proposer
  validRound := block.validRound
  value := block.selfReportedBlockHash
  validity := validity

/-- `From<&ConsensusBlock> for ProposedValue`. -/
def toProposedValue : ProposedValue :=
  block.toProposedValueWithValidity block.validity

section Canonical

-- The hash recomputed from a payload; `none` is a payload error.
variable (canonicalBlockHash : ExecutionPayload → Option BlockHash)

/-- The self-reported hash is the recomputed one. -/
def selfReportedHashIsCanonical : Bool :=
  canonicalBlockHash block.executionPayload = some block.selfReportedBlockHash

/-- Valid blocks may always be stored, invalid ones only under their canonical hash. -/
def mayBeStoredAsUndecided : Bool :=
  block.validity.isValid || block.selfReportedHashIsCanonical canonicalBlockHash

end Canonical

end ConsensusBlock

/-! ### Certificates -/

structure CommitSignature where
  address : Address
  signature : Signature
  deriving DecidableEq

/-- A commit certificate: the votes that decide a value at a height. -/
structure CommitCertificate where
  height : Height
  round : Round
  valueId : BlockHash
  commitSignatures : List CommitSignature
  deriving DecidableEq

/-- Whether a certificate was extended during finalization. -/
inductive CommitCertificateType where
  | unknown
  | minimal
  | extended
  deriving DecidableEq

/-- A certificate as the store keeps it. -/
structure StoredCommitCertificate where
  certificate : CommitCertificate
  certificateType : CommitCertificateType
  proposer : Option Address
  deriving DecidableEq

/-- A decided payload with its certificate; `DecidedBlock::new` asserts that the hashes agree. -/
structure DecidedBlock where
  executionPayload : ExecutionPayload
  certificate : CommitCertificate
  agrees : executionPayload.blockHash = certificate.valueId

/-- `DecidedBlock::new`; `none` is the failed assertion. -/
def DecidedBlock.new (executionPayload : ExecutionPayload) (certificate : CommitCertificate) :
    Option DecidedBlock :=
  if agrees : executionPayload.blockHash = certificate.valueId then
    some ⟨executionPayload, certificate, agrees⟩
  else none

def DecidedBlock.height (block : DecidedBlock) : Height := block.certificate.height

/-! ### Proposal parts -/

/-- The first part of a proposal. -/
structure ProposalInit where
  height : Height
  round : Round
  polRound : Round
  proposer : Address
  deriving DecidableEq

inductive ProposalPart where
  | init (part : ProposalInit)
  | data (bytes : List Byte)
  | fin (signature : Signature)
  deriving DecidableEq

/-- Which part is missing or doubled. -/
inductive PartKind where
  | init
  | fin
  deriving DecidableEq

inductive ProposalPartsError where
  | missingPart (kind : PartKind)
  | duplicatePart (kind : PartKind)
  deriving DecidableEq

/-- A complete proposal: its single `Init`, its data in order, the signature of its single `Fin`. -/
structure ProposalParts where
  init : ProposalInit
  data : List (List Byte)
  signature : Signature
  deriving DecidableEq

variable (parts : ProposalParts)

namespace ProposalParts

/-- One turn of the loop of `ProposalParts::new`. -/
def absorb (found : Option ProposalInit × List (List Byte) × Option Signature) :
    ProposalPart → Except ProposalPartsError
      (Option ProposalInit × List (List Byte) × Option Signature)
  | .init part =>
    if found.1.isSome then .error (.duplicatePart .init) else .ok (some part, found.2.1, found.2.2)
  | .fin signature =>
    if found.2.2.isSome then .error (.duplicatePart .fin)
    else .ok (found.1, found.2.1, some signature)
  | .data bytes => .ok (found.1, found.2.1 ++ [bytes], found.2.2)

def new (parts : List ProposalPart) : Except ProposalPartsError ProposalParts :=
  match parts.foldlM absorb (none, [], none) with
  | .error error => .error error
  | .ok (none, _, _) => .error (.missingPart .init)
  | .ok (some _, _, none) => .error (.missingPart .fin)
  | .ok (some init, data, some signature) => .ok ⟨init, data, signature⟩

/-- The parts as a list, in the order they are streamed. -/
def toList : List ProposalPart :=
  .init parts.init :: (parts.data.map .data ++ [.fin parts.signature])

theorem foldlM_absorb_data (init : Option ProposalInit) (front data : List (List Byte))
    (fin : Option Signature) :
    (data.map ProposalPart.data).foldlM absorb (init, front, fin) =
      .ok (init, front ++ data, fin) := by
  induction data generalizing front with
  | nil =>
    rw [List.append_nil]
    rfl
  | cons piece rest ih =>
    rw [List.map_cons, List.foldlM_cons]
    show (rest.map ProposalPart.data).foldlM absorb (init, front ++ [piece], fin) = _
    rw [ih, List.append_assoc]
    rfl

/-- **Parts in stream order are recognised.** -/
theorem new_toList : new parts.toList = .ok parts := by
  have folded : parts.toList.foldlM absorb (none, [], none) =
      .ok (some parts.init, parts.data, some parts.signature) := by
    unfold toList
    rw [List.foldlM_cons]
    show (parts.data.map ProposalPart.data ++ [ProposalPart.fin parts.signature]).foldlM absorb
      (some parts.init, [], none) = _
    rw [List.foldlM_append, foldlM_absorb_data]
    rfl
  unfold new
  rw [folded]

def height (parts : ProposalParts) : Height := parts.init.height

def round (parts : ProposalParts) : Round := parts.init.round

def proposer (parts : ProposalParts) : Address := parts.init.proposer

def bytes : List Byte := parts.data.flatten

/-- The bytes that are hashed and signed: height, round and data, without separators. -/
def preimage (height : Height) (round : Round) (data : List Byte) : List Byte :=
  beBytes 8 height.val ++ (round.toBeBytes ++ data)

section Keccak

variable (keccak : List Byte → BlockHash)

def hash : BlockHash :=
  keccak (preimage parts.height parts.round parts.bytes)

/-- `ProposalParts::pending_key`: the signed hash together with the fields it omits. -/
def pendingKey : BlockKey where
  height := parts.height
  round := parts.round
  hash := keccak (beBytes 32 (parts.hash keccak).val ++ (beBytes 20 parts.proposer.val ++
    (parts.init.polRound.toBeBytes ++ parts.signature)))

end Keccak

end ProposalParts

/-! ### Forensic records -/

/-- A payload that was rejected, kept for forensics. -/
structure InvalidPayload where
  height : Height
  round : Round
  proposerAddress : Address
  payload : Option ExecutionPayload
  reason : String
  deriving DecidableEq

def InvalidPayload.newFromBlock (reason : String) : InvalidPayload where
  height := block.height
  round := block.round
  proposerAddress := block.proposer
  payload := some block.executionPayload
  reason := reason

def InvalidPayload.newFromParts (reason : String) : InvalidPayload where
  height := parts.height
  round := parts.round
  proposerAddress := parts.proposer
  payload := none
  reason := reason

def InvalidPayload.newWithoutPayload (height : Height) (round : Round) (proposer : Address)
    (reason : String) : InvalidPayload where
  height := height
  round := round
  proposerAddress := proposer
  payload := none
  reason := reason

/-- The rejected payloads of one height. -/
structure StoredInvalidPayloads where
  height : Height
  payloads : List InvalidPayload
  deriving DecidableEq

end ArcNode.Types
