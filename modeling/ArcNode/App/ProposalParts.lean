/-
**From a block to a stream of parts, and back.**

The proposer splits the encoded payload of a block into chunks, signs the hash of height, round and
chunks, and numbers the parts (`makeProposalParts`, `prepareStream`). The receiver checks that the
parts come from the selected proposer and carry its signature (`validateProposalParts`) and puts
the block together again (`assembleBlockFromParts`). What the application calls and does not
implement (Keccak, SSZ, signatures, the hash of an execution block) is a parameter, `Externals`.
-/

import ArcNode.App.Streaming

namespace ArcNode.App

open ArcNode.Lib ArcNode.Types

/-- The verification key of a validator. -/
abbrev PublicKey := Fin (2 ^ 256)

/-- The functions of other crates. -/
structure Externals where
  /-- Keccak-256. -/
  keccak : List Byte → BlockHash
  /-- `ExecutionPayloadV3::as_ssz_bytes`. -/
  asSszBytes : ExecutionPayload → List Byte
  /-- `ExecutionPayloadV3::from_ssz_bytes`, with the text of its error. -/
  fromSszBytes : List Byte → Except String ExecutionPayload
  /-- The block hash recomputed from a payload; `none` is a payload error. -/
  canonicalBlockHash : ExecutionPayload → Option BlockHash
  /-- `verify_signed_bytes`: whether a signature of a hash is valid; `none` is an error. -/
  verifySignedBytes : BlockHash → Signature → PublicKey → Option Bool

/-! ### Validators -/

structure Validator where
  address : Address
  publicKey : PublicKey
  votingPower : Fin (2 ^ 64)
  deriving DecidableEq

abbrev ValidatorSet := List Validator

/-- `RoundRobin::select_proposer`; the subtraction wraps in a release build, and `none` stands for
the assertions against an empty set and a nil round. -/
def selectProposer (validatorSet : ValidatorSet) (height : Height) : Round → Option Validator
  | .nil => none
  | .some round =>
    validatorSet[(height.val + (2 ^ 64 - 1) + round.val) % 2 ^ 64 % validatorSet.length]?

theorem selectProposer_mem {validatorSet : ValidatorSet} {height : Height} {round : Round}
    {proposer : Validator} (selected : selectProposer validatorSet height round = some proposer) :
    proposer ∈ validatorSet := by
  cases round with
  | nil => cases selected
  | some number => exact List.mem_of_getElem? selected

/-! ### The sender -/

section Sender

variable (E : Externals) (signBytes : BlockHash → Option Signature)

def payloadChunks (payload : ExecutionPayload) : List (List Byte) :=
  chunks chunkSize (E.asSszBytes payload)

/-- The hash the proposer of a block signs. -/
def signedHash (block : ConsensusBlock) : BlockHash :=
  E.keccak (ProposalParts.preimage block.height block.round
    (payloadChunks E block.executionPayload).flatten)

/-- `make_proposal_parts`; a block that carries a signature is streamed again with it. -/
def makeProposalParts (block : ConsensusBlock) : Option (List ProposalPart × Signature) := do
  let signature ← match block.signature with
    | some signature => some signature
    | none => signBytes (signedHash E block)
  some
    (.init ⟨block.height, block.round, block.validRound, block.proposer⟩ ::
      ((payloadChunks E block.executionPayload).map .data ++ [.fin signature]), signature)

/-- The messages of a stream: every part in order, then the end. -/
def streamMessages (streamId : StreamId) (parts : List ProposalPart) : List StreamMessage :=
  (parts.map StreamContent.data ++ [StreamContent.fin]).zipIdx.map fun entry =>
    ⟨streamId, entry.2, entry.1⟩

def prepareStream (streamId : StreamId) (block : ConsensusBlock) :
    Option (List StreamMessage × Signature) := do
  let (parts, signature) ← makeProposalParts E signBytes block
  some (streamMessages streamId parts, signature)

end Sender

/-! ### The receiver -/

def resolveExpectedProposer (validatorSet : ValidatorSet) (parts : ProposalParts) :
    Option Validator :=
  selectProposer validatorSet parts.height parts.round

section Receiver

variable (E : Externals)

def validateProposalParts (parts : ProposalParts) (expectedProposer : Validator) : Bool :=
  expectedProposer.address = parts.proposer &&
    E.verifySignedBytes (parts.hash E.keccak) parts.signature expectedProposer.publicKey = some true

def assembleBlockFromParts (parts : ProposalParts) : Except String ConsensusBlock :=
  match E.fromSszBytes parts.bytes with
  | .error error => .error ("Failed to decode execution payload: " ++ error)
  | .ok payload => .ok
    { height := parts.height
      round := parts.round
      validRound := parts.init.polRound
      proposer := parts.proposer
      validity := .valid
      executionPayload := payload
      signature := some parts.signature }

variable {E} {parts : ProposalParts} {block : ConsensusBlock}

theorem assembleBlockFromParts_ok (assembled : assembleBlockFromParts E parts = .ok block) :
    block.height = parts.height ∧ block.round = parts.round ∧ block.proposer = parts.proposer ∧
      E.fromSszBytes parts.bytes = .ok block.executionPayload := by
  unfold assembleBlockFromParts at assembled
  cases decoded : E.fromSszBytes parts.bytes with
  | error error =>
    rw [decoded] at assembled
    cases assembled
  | ok payload =>
    rw [decoded] at assembled
    cases assembled
    exact ⟨rfl, rfl, rfl, rfl⟩

end Receiver

/-! ### The parts of one block -/

/-- The parts a block is streamed as. -/
def partsOf (E : Externals) (block : ConsensusBlock) (signature : Signature) : ProposalParts where
  init := ⟨block.height, block.round, block.validRound, block.proposer⟩
  data := payloadChunks E block.executionPayload
  signature := signature

variable {E : Externals} {signBytes : BlockHash → Option Signature} {block : ConsensusBlock}
  {parts : List ProposalPart} {signature : Signature}

theorem makeProposalParts_eq_some
    (made : makeProposalParts E signBytes block = some (parts, signature)) :
    parts = (partsOf E block signature).toList ∧
      (block.signature = some signature ∨ signBytes (signedHash E block) = some signature) := by
  unfold makeProposalParts at made
  cases existing : block.signature with
  | some known =>
    simp only [existing, Option.bind_eq_bind, Option.bind_some, Option.some.injEq,
      Prod.mk.injEq] at made
    obtain ⟨rfl, rfl⟩ := made
    exact ⟨rfl, .inl rfl⟩
  | none =>
    simp only [existing, Option.bind_eq_bind, Option.bind_eq_some_iff, Option.some.injEq,
      Prod.mk.injEq] at made
    obtain ⟨signed, fresh, rfl, rfl⟩ := made
    exact ⟨rfl, .inr fresh⟩

/-- **A prepared stream holds the parts of the block**, under a signature kept or made. -/
theorem prepareStream_eq_some {streamId : StreamId} {messages : List StreamMessage}
    (prepared : prepareStream E signBytes streamId block = some (messages, signature)) :
    messages = streamMessages streamId (partsOf E block signature).toList ∧
      (block.signature = some signature ∨ signBytes (signedHash E block) = some signature) := by
  unfold prepareStream at prepared
  simp only [Option.bind_eq_bind, Option.bind_eq_some_iff, Option.some.injEq,
    Prod.mk.injEq, Prod.exists] at prepared
  obtain ⟨parts, used, made, rfl, rfl⟩ := prepared
  obtain ⟨rfl, signed⟩ := makeProposalParts_eq_some made
  exact ⟨rfl, signed⟩

theorem hash_partsOf (block : ConsensusBlock) (signature : Signature) :
    (partsOf E block signature).hash E.keccak = signedHash E block := rfl

theorem bytes_partsOf (block : ConsensusBlock) (signature : Signature) :
    (partsOf E block signature).bytes = E.asSszBytes block.executionPayload :=
  chunks_flatten (by decide) _

theorem validateProposalParts_partsOf {proposer : Validator}
    (signer : proposer.address = block.proposer)
    (verified : E.verifySignedBytes (signedHash E block) signature proposer.publicKey = some true) :
    validateProposalParts E (partsOf E block signature) proposer = true := by
  unfold validateProposalParts
  rw [hash_partsOf, Bool.and_eq_true, decide_eq_true_eq, decide_eq_true_eq]
  exact ⟨signer, verified⟩

theorem assembleBlockFromParts_partsOf
    (roundTrip : E.fromSszBytes (E.asSszBytes block.executionPayload) =
      .ok block.executionPayload) :
    assembleBlockFromParts E (partsOf E block signature) =
      .ok { block with validity := .valid, signature := some signature } := by
  unfold assembleBlockFromParts
  rw [bytes_partsOf, roundTrip]
  rfl

/-! ### Bare payloads -/

/-- The SSZ encoding of a payload whose remaining fields are zero or empty: 528 bytes, in which
hashes are raw, integers little-endian, and the three empty lists start where the fixed part
ends. -/
def bareSszBytes (payload : ExecutionPayload) : List Byte :=
  beBytes 32 payload.parentHash.val ++ List.replicate 372 0 ++
    (beBytes 8 payload.blockNumber.val).reverse ++ List.replicate 16 0 ++
    (beBytes 8 payload.timestamp.val).reverse ++ [16, 2, 0, 0] ++ List.replicate 32 0 ++
    beBytes 32 payload.blockHash.val ++ [16, 2, 0, 0, 16, 2, 0, 0] ++ List.replicate 16 0

/-- Reads the fields of a bare payload at their offsets. -/
def fromBareSszBytes (bytes : List Byte) : Except String ExecutionPayload :=
  let payload : ExecutionPayload :=
    { parentHash := Fin.ofNat (2 ^ 256) (beValue (bytes.take 32))
      blockNumber := Height.new (beValue ((bytes.drop 404).take 8).reverse)
      timestamp := Fin.ofNat (2 ^ 64) (beValue ((bytes.drop 428).take 8).reverse)
      blockHash := Fin.ofNat (2 ^ 256) (beValue ((bytes.drop 472).take 32))
      body := [] }
  if bareSszBytes payload = bytes then .ok payload else .error "BytesInvalid"

/-- A signature that spells out its key and what it signs. -/
def bareSignature (key : PublicKey) (digest : BlockHash) : Signature :=
  beBytes 32 key.val ++ beBytes 32 digest.val

/-- Externals for bare payloads: Keccak by a table of digests, and spelled-out signatures. -/
def bareExternals (digests : List (List Byte × BlockHash))
    (canonicalBlockHash : ExecutionPayload → Option BlockHash) : Externals where
  keccak preimage := (digests.lookup preimage).getD 0
  asSszBytes := bareSszBytes
  fromSszBytes := fromBareSszBytes
  canonicalBlockHash := canonicalBlockHash
  verifySignedBytes digest signature key := some (signature = bareSignature key digest)

end ArcNode.App
