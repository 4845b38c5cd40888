/-
**The codec of the store, and all codecs together.**

Every value of the store is a byte that names the version of its format, followed by the encoding of
a protobuf message or by an SSZ encoding. Absent values are sentinels in some messages: a time of
zero and an empty value id mean that there is none. Certificates are decoded within a bound on their
signatures that the encoder does not check, and times are cut to 64 bits. Up to these limits no
codec of the network or of the store loses anything (**`codecs_lose_nothing`**); past them the bytes
are rejected or read differently (`decoders_reject_what_encoders_write`).
-/

import ArcNode.Codec.Network

namespace ArcNode.Codec

open ArcNode.Lib ArcNode.Lib.Protobuf ArcNode.Types ArcNode.App

/-! ### Messages in the store -/

namespace Proto

structure StoreCommitCertificate where
  height : Fin (2 ^ 64)
  round : Fin (2 ^ 32)
  valueId : Option ValueId
  signatures : List CommitSignature
  proposer : Option Address
  extended : Option Bool
  deriving DecidableEq, Encodable

instance : Message StoreCommitCertificate where
  default := ⟨0, 0, none, [], none, none⟩
  fields message :=
    scalarField 1 message.height.val ++ (scalarField 2 message.round.val ++
      (messageField 3 message.valueId ++ (repeatedField 4 message.signatures ++
        (messageField 5 message.proposer ++ optionalField 6 (message.extended.map Bool.toNat)))))
  mergeField limit message field := match field.number with
    | 1 => (mergeVarint field.wire).map fun value => { message with height := Fin.ofNat _ value }
    | 2 => (mergeVarint field.wire).map fun value => { message with round := Fin.ofNat _ value }
    | 3 => (mergeMessage limit message.valueId field.wire).map fun value =>
      { message with valueId := some value }
    | 4 => (mergeMessage limit none field.wire).map fun signature =>
      { message with signatures := message.signatures ++ [signature] }
    | 5 => (mergeMessage limit message.proposer field.wire).map fun address =>
      { message with proposer := some address }
    | 6 => (mergeVarint field.wire).map fun value => { message with extended := some (value ≠ 0) }
    | _ => skipField limit message

structure DoubleVote where
  first : Option SignedMessage
  second : Option SignedMessage

structure DoubleProposal where
  first : Option SignedMessage
  second : Option SignedMessage

structure ValidatorEvidence where
  address : Option Address
  doubleVotes : List DoubleVote
  doubleProposals : List DoubleProposal

structure MisbehaviorEvidence where
  height : Fin (2 ^ 64)
  validators : List ValidatorEvidence

structure ProposalMonitorData where
  height : Fin (2 ^ 64)
  proposer : Option Address
  startTimeMs : Fin (2 ^ 64)
  receiveTimeMs : Fin (2 ^ 64)
  valueId : List Byte
  successfulState : Fin (2 ^ 32)
  synced : Bool

structure InvalidPayload where
  height : Fin (2 ^ 64)
  round : Fin (2 ^ 32)
  proposerAddress : Option Address
  payload : Option (List Byte)
  reason : String

structure InvalidPayloads where
  height : Fin (2 ^ 64)
  payloads : List InvalidPayload

end Proto

structure SszBlock where
  height : Fin (2 ^ 64)
  round : Option (Fin (2 ^ 32))
  validRound : Option (Fin (2 ^ 32))
  proposer : Address
  isValid : Bool
  executionPayload : ExecutionPayload
  signature : Option SignatureBytes

inductive DecodeError where
  | emptyVersion
  | unsupportedVersion (version : Byte)
  | ssz
  | protobuf
  | proto (error : ProtoError)

/-- **The formats of other crates**: prost for each message, SSZ for payloads and blocks, and the
bytes of a peer id. -/
structure Formats (PeerId : Type) where
  streamMessage : WireFormat Proto.StreamMessage
  proposalPart : WireFormat Proto.ProposalPart
  livenessMessage : WireFormat Proto.LivenessMessage
  status : WireFormat Proto.Status
  syncRequest : WireFormat Proto.SyncRequest
  syncResponse : WireFormat Proto.SyncResponse
  peerId : WireFormat PeerId
  commitCertificate : WireFormat Proto.StoreCommitCertificate
  proposalParts : WireFormat Proto.ProposalParts
  misbehaviorEvidence : WireFormat Proto.MisbehaviorEvidence
  invalidPayloads : WireFormat Proto.InvalidPayloads
  proposalMonitorData : WireFormat Proto.ProposalMonitorData
  executionPayload : WireFormat ExecutionPayload
  block : WireFormat SszBlock

namespace StoreCodec

open ProtobufCodec

/-- The version byte, then the message a value is converted to. -/
def encodeWith {α M : Type} (version : Byte) (format : WireFormat M) (write : α → Option M)
    (value : α) : Option (List Byte) :=
  (encodeVia format write value).map (version :: ·)

def decodeWith {α M : Type} (version : Byte) (format : WireFormat M) (malformed : DecodeError)
    (read : M → Except DecodeError α) : List Byte → Except DecodeError α :=
  decodeVersioned .emptyVersion .unsupportedVersion version (decodeVia format malformed read)

theorem inverts_with {α M : Type} {version : Byte} {format : WireFormat M} {malformed : DecodeError}
    {write : α → Option M} {read : M → Except DecodeError α} {good : α → Prop}
    (inverts : Inverts write read good) :
    Inverts (encodeWith version format write) (decodeWith version format malformed read) good :=
  inverts_versioned (inverts_via inverts) _ _ version

/-- A conversion of the protobuf codec, with its errors as errors of the store. -/
def lifted {α M : Type} (read : M → Except ProtoError α) (message : M) : Except DecodeError α :=
  (read message).mapError .proto

theorem inverts_lifted {α M : Type} {write : α → Option M} {read : M → Except ProtoError α}
    {good : α → Prop} (inverts : Inverts write read good) : Inverts write (lifted read) good :=
  inverts.mapError DecodeError.proto

/-! ### Certificates -/

/-- `CommitCertificateType::as_bool`. -/
def certificateTypeAsBool : CommitCertificateType → Option Bool
  | .unknown => none
  | .minimal => some false
  | .extended => some true

/-- `From<Option<bool>> for CommitCertificateType`. -/
def certificateTypeFromBool : Option Bool → CommitCertificateType
  | none => .unknown
  | some false => .minimal
  | some true => .extended

def commitSignatureToProto (signature : CommitSignature) : Proto.CommitSignature where
  validatorAddress := some (addressToProto signature.address)
  signature := some ⟨signature.signature⟩
  extension := none

def commitSignatureFromProto (message : Proto.CommitSignature) :
    Except ProtoError CommitSignature := do
  let address ← required "CommitSignature" "validator_address" message.validatorAddress
  let signature ← required "CommitSignature" "signature" message.signature
  let bytes ← decodeSignature signature
  let address ← addressFromProto address
  .ok ⟨address, bytes.toList⟩

/-- `encode_store_commit_certificate`; `none` is the panic on a nil round. -/
def encodeStoreCommitCertificate (stored : StoredCommitCertificate) :
    Option Proto.StoreCommitCertificate :=
  stored.certificate.round.asU32.map fun round =>
    { height := heightToProto stored.certificate.height
      round := round
      valueId := some (valueIdToProto stored.certificate.valueId)
      signatures := stored.certificate.commitSignatures.map commitSignatureToProto
      proposer := stored.proposer.map addressToProto
      extended := certificateTypeAsBool stored.certificateType }

def decodeCommitCertificateFields (height : Fin (2 ^ 64)) (round : Fin (2 ^ 32))
    (valueId : Option Proto.ValueId) (signatures : List Proto.CommitSignature) :
    Except ProtoError CommitCertificate := do
  if maxSignaturesPerCertificate < signatures.length then
    .error (.other ("CommitCertificate signature count " ++ toString signatures.length ++
      " exceeds maximum " ++ toString maxSignaturesPerCertificate))
  else
    let valueId ← valueIdFromProto (← required "CommitCertificate" "value_id" valueId)
    let commitSignatures ← signatures.mapM commitSignatureFromProto
    .ok ⟨heightFromProto height, .some round, valueId, commitSignatures⟩

def decodeStoreCommitCertificate (message : Proto.StoreCommitCertificate) :
    Except ProtoError StoredCommitCertificate := do
  if message.signatures.any fun signature => signature.extension.isSome then
    .error (.other "Stored CommitCertificate signatures must not contain vote extensions")
  else
    let certificate ← decodeCommitCertificateFields message.height message.round message.valueId
      message.signatures
    let proposer ← message.proposer.mapM addressFromProto
    .ok ⟨certificate, certificateTypeFromBool message.extended, proposer⟩

/-- A certificate that the decoder takes: not too many signatures, each of 64 bytes. -/
structure StoredCommitCertificate.Bounded (stored : StoredCommitCertificate) : Prop where
  signatures : stored.certificate.commitSignatures.length ≤ maxSignaturesPerCertificate
  sized : ∀ signature ∈ stored.certificate.commitSignatures, signature.signature.length = 64

theorem commitSignatureFromProto_commitSignatureToProto {signature : CommitSignature}
    (sized : signature.signature.length = 64) :
    commitSignatureFromProto (commitSignatureToProto signature) = .ok signature := by
  simp only [commitSignatureFromProto, commitSignatureToProto, required, decodeSignature, dif_pos sized,
    addressFromProto_addressToProto, bind, Except.bind]
  rfl

theorem mapM_addressFromProto (address : Option Address) :
    (address.map addressToProto).mapM addressFromProto = .ok address :=
  mapM_map_option addressFromProto_addressToProto address

theorem any_extension_commitSignatureToProto (signatures : List CommitSignature) :
    ((signatures.map commitSignatureToProto).any fun signature =>
      signature.extension.isSome) = false := by
  rw [List.any_map, List.any_eq_false]
  intro signature _
  exact Bool.false_ne_true

theorem inverts_storeCommitCertificate :
    Inverts encodeStoreCommitCertificate decodeStoreCommitCertificate
      StoredCommitCertificate.Bounded := by
  intro stored message bounded converted
  obtain ⟨⟨height, round, valueId, signatures⟩, certificateType, proposer⟩ := stored
  obtain ⟨number, same, rfl⟩ := written_round converted
  have within := map_within bounded.signatures commitSignatureToProto
  have read : (signatures.map commitSignatureToProto).mapM commitSignatureFromProto =
      .ok signatures :=
    mapM_map fun signature member =>
      commitSignatureFromProto_commitSignatureToProto (bounded.sized signature member)
  have typ : certificateTypeFromBool (certificateTypeAsBool certificateType) = certificateType := by
    cases certificateType <;> rfl
  simp only [decodeStoreCommitCertificate, any_extension_commitSignatureToProto,
    if_neg Bool.false_ne_true, decodeCommitCertificateFields, if_neg within, required,
    valueIdFromProto_valueIdToProto, read, mapM_addressFromProto, typ, bind, Except.bind, same]
  rfl

/-! ### Blocks -/

/-- A signature of 64 bytes, as its type says. -/
def sizedSignature (signature : Signature) : Option SignatureBytes :=
  if sized : signature.length = 64 then some ⟨signature, sized⟩ else none

def blockAsSszData (block : ConsensusBlock) : Option SszBlock :=
  (block.signature.mapM sizedSignature).map fun signature =>
    { height := heightToProto block.height
      round := block.round.asU32
      validRound := block.validRound.asU32
      proposer := block.proposer
      isValid := block.validity.isValid
      executionPayload := block.executionPayload
      signature := signature }

def blockFromSszData (data : SszBlock) : Except DecodeError ConsensusBlock :=
  .ok { height := heightFromProto data.height
        round := .ofOption data.round
        validRound := .ofOption data.validRound
        proposer := data.proposer
        validity := validityFromBool data.isValid
        executionPayload := data.executionPayload
        signature := data.signature.map List.Vector.toList }

theorem inverts_block : Inverts blockAsSszData blockFromSszData fun _ => True := by
  intro block data _ converted
  obtain ⟨height, round, validRound, proposer, validity, payload, signature⟩ := block
  obtain ⟨sized, wrote, rfl⟩ := Option.map_eq_some_iff.mp converted
  have back : sized.map List.Vector.toList = signature := by
    cases signature with
    | none =>
      obtain rfl : none = sized := Option.some.inj wrote
      rfl
    | some bytes =>
      obtain ⟨inner, fits, rfl⟩ := Option.map_eq_some_iff.mp wrote
      unfold sizedSignature at fits
      split_ifs at fits with length
      rw [← Option.some.inj fits]
      rfl
  simp only [blockFromSszData, Round.ofOption_asU32, validityFromBool_isValid, back]
  rfl

/-! ### Evidence -/

def doubleVoteToProto (double : DoubleVote) : Option Proto.DoubleVote := do
  let first ← encodeVote double.first
  let second ← encodeVote double.second
  some ⟨some first, some second⟩

def requiredField {α : Type} (text : String) : Option α → Except DecodeError α
  | some value => .ok value
  | none => .error (.proto (.other text))

def doubleVoteFromProto (message : Proto.DoubleVote) : Except DecodeError DoubleVote := do
  let first ← lifted decodeVote (← requiredField "Missing first vote in double vote" message.first)
  let second ← lifted decodeVote (← requiredField "Missing second vote in double vote" message.second)
  .ok ⟨first, second⟩

def doubleProposalToProto (double : DoubleProposal) : Option Proto.DoubleProposal := do
  let first ← encodeSignedProposal double.first
  let second ← encodeSignedProposal double.second
  some ⟨some first, some second⟩

def doubleProposalFromProto (message : Proto.DoubleProposal) :
    Except DecodeError DoubleProposal := do
  let first ← lifted decodeSignedProposal
    (← requiredField "Missing first proposal in double proposal" message.first)
  let second ← lifted decodeSignedProposal
    (← requiredField "Missing second proposal in double proposal" message.second)
  .ok ⟨first, second⟩

def validatorEvidenceToProto (evidence : ValidatorEvidence) : Option Proto.ValidatorEvidence := do
  let doubleVotes ← evidence.doubleVotes.mapM doubleVoteToProto
  let doubleProposals ← evidence.doubleProposals.mapM doubleProposalToProto
  some ⟨some (addressToProto evidence.address), doubleVotes, doubleProposals⟩

def validatorEvidenceFromProto (message : Proto.ValidatorEvidence) :
    Except DecodeError ValidatorEvidence := do
  let address ← lifted addressFromProto
    (← requiredField "Missing address in validator evidence" message.address)
  let doubleVotes ← message.doubleVotes.mapM doubleVoteFromProto
  let doubleProposals ← message.doubleProposals.mapM doubleProposalFromProto
  .ok ⟨address, doubleVotes, doubleProposals⟩

def misbehaviorEvidenceToProto (evidence : StoredMisbehaviorEvidence) :
    Option Proto.MisbehaviorEvidence :=
  (evidence.validators.mapM validatorEvidenceToProto).map fun validators =>
    ⟨heightToProto evidence.height, validators⟩

def misbehaviorEvidenceFromProto (message : Proto.MisbehaviorEvidence) :
    Except DecodeError StoredMisbehaviorEvidence := do
  let validators ← message.validators.mapM validatorEvidenceFromProto
  .ok ⟨heightFromProto message.height, validators⟩

/-- No vote of the evidence carries an extension. -/
def DoubleVote.Plain (double : DoubleVote) : Prop :=
  double.first.1.extension = none ∧ double.second.1.extension = none

theorem inverts_doubleVote : Inverts doubleVoteToProto doubleVoteFromProto DoubleVote.Plain := by
  intro double message plain converted
  obtain ⟨first, wroteFirst, rest⟩ := Option.bind_eq_some_iff.mp converted
  obtain ⟨second, wroteSecond, same⟩ := Option.bind_eq_some_iff.mp rest
  obtain rfl := Option.some.inj same
  have readFirst := inverts_vote double.first first plain.1 wroteFirst
  have readSecond := inverts_vote double.second second plain.2 wroteSecond
  simp only [doubleVoteFromProto, requiredField, lifted, readFirst, readSecond, Except.mapError, bind,
    Except.bind]

theorem inverts_doubleProposal :
    Inverts doubleProposalToProto doubleProposalFromProto fun _ => True := by
  intro double message _ converted
  obtain ⟨first, wroteFirst, rest⟩ := Option.bind_eq_some_iff.mp converted
  obtain ⟨second, wroteSecond, same⟩ := Option.bind_eq_some_iff.mp rest
  obtain rfl := Option.some.inj same
  have readFirst := inverts_signedProposal double.first first trivial wroteFirst
  have readSecond := inverts_signedProposal double.second second trivial wroteSecond
  simp only [doubleProposalFromProto, requiredField, lifted, readFirst, readSecond, Except.mapError,
    bind, Except.bind]

theorem inverts_validatorEvidence :
    Inverts validatorEvidenceToProto validatorEvidenceFromProto fun evidence =>
      ∀ double ∈ evidence.doubleVotes, DoubleVote.Plain double := by
  intro evidence message plain converted
  obtain ⟨votes, wroteVotes, rest⟩ := Option.bind_eq_some_iff.mp converted
  obtain ⟨proposals, wroteProposals, same⟩ := Option.bind_eq_some_iff.mp rest
  obtain rfl := Option.some.inj same
  have readVotes : votes.mapM doubleVoteFromProto = .ok evidence.doubleVotes :=
    inverts_doubleVote.mapM evidence.doubleVotes votes plain wroteVotes
  have readProposals : proposals.mapM doubleProposalFromProto = .ok evidence.doubleProposals :=
    inverts_doubleProposal.mapM evidence.doubleProposals proposals (fun _ _ => trivial) wroteProposals
  simp only [validatorEvidenceFromProto, requiredField, lifted, addressFromProto_addressToProto,
    readVotes, readProposals, Except.mapError, bind, Except.bind]

theorem inverts_misbehaviorEvidence :
    Inverts misbehaviorEvidenceToProto misbehaviorEvidenceFromProto fun evidence =>
      ∀ validator ∈ evidence.validators, ∀ double ∈ validator.doubleVotes, DoubleVote.Plain double := by
  intro evidence message plain converted
  obtain ⟨validators, wrote, rfl⟩ := Option.map_eq_some_iff.mp converted
  have read : validators.mapM validatorEvidenceFromProto = .ok evidence.validators :=
    inverts_validatorEvidence.mapM evidence.validators validators plain wrote
  simp only [misbehaviorEvidenceFromProto, read, bind, Except.bind]
  rfl

/-! ### Invalid payloads -/

section InvalidPayloads

variable (payloads : WireFormat ExecutionPayload)

/-- One rejected payload; `none` is the error for a nil round. -/
def invalidPayloadToProto (invalid : InvalidPayload) : Option Proto.InvalidPayload :=
  invalid.round.asU32.map fun round =>
    { height := heightToProto invalid.height
      round := round
      proposerAddress := some (addressToProto invalid.proposerAddress)
      payload := invalid.payload.map payloads.encode
      reason := invalid.reason }

def invalidPayloadFromProto (message : Proto.InvalidPayload) : Except DecodeError InvalidPayload := do
  let address ← lifted addressFromProto
    (← requiredField "Missing proposer_address in invalid payload" message.proposerAddress)
  let payload ← message.payload.mapM (payloads.fromBytes .ssz)
  .ok { height := heightFromProto message.height
        round := .some message.round
        proposerAddress := address
        payload := payload
        reason := message.reason }

def invalidPayloadsToProto (stored : StoredInvalidPayloads) : Option Proto.InvalidPayloads :=
  (stored.payloads.mapM (invalidPayloadToProto payloads)).map fun invalid =>
    ⟨heightToProto stored.height, invalid⟩

def invalidPayloadsFromProto (message : Proto.InvalidPayloads) :
    Except DecodeError StoredInvalidPayloads := do
  let invalid ← message.payloads.mapM (invalidPayloadFromProto payloads)
  .ok ⟨heightFromProto message.height, invalid⟩

theorem inverts_invalidPayload :
    Inverts (invalidPayloadToProto payloads) (invalidPayloadFromProto payloads) fun _ => True := by
  intro invalid message _ converted
  obtain ⟨height, round, proposer, payload, reason⟩ := invalid
  obtain ⟨number, same, rfl⟩ := written_round converted
  have read : (payload.map payloads.encode).mapM (payloads.fromBytes DecodeError.ssz) = .ok payload :=
    mapM_map_option (payloads.fromBytes_encode DecodeError.ssz) payload
  simp only [invalidPayloadFromProto, requiredField, lifted, addressFromProto_addressToProto,
    Except.mapError, read, bind, Except.bind, same]
  rfl

theorem inverts_invalidPayloads :
    Inverts (invalidPayloadsToProto payloads) (invalidPayloadsFromProto payloads) fun _ => True := by
  intro stored message _ converted
  obtain ⟨invalid, wrote, rfl⟩ := Option.map_eq_some_iff.mp converted
  have read : invalid.mapM (invalidPayloadFromProto payloads) = .ok stored.payloads :=
    (inverts_invalidPayload payloads).mapM stored.payloads invalid (fun _ _ => trivial) wrote
  simp only [invalidPayloadsFromProto, read, bind, Except.bind]
  rfl

end InvalidPayloads

/-! ### The proposal monitor -/

/-- `ProposalSuccessState::as_u32`. -/
def successStateAsU32 : ProposalSuccessState → Fin (2 ^ 32)
  | .unknown => 0
  | .unsuccessful => 1
  | .successful => 2

/-- `From<u32> for ProposalSuccessState`. -/
def successStateFromU32 (number : Fin (2 ^ 32)) : ProposalSuccessState :=
  if number = 1 then .unsuccessful else if number = 2 then .successful else .unknown

/-- `as_millis() as u64`. -/
def millis (time : ℕ) : Fin (2 ^ 64) := Fin.ofNat _ time

def timeToProto (time : Option ℕ) : Fin (2 ^ 64) := (time.map millis).getD 0

def timeFromProto (time : Fin (2 ^ 64)) : Option ℕ := if 0 < time.val then some time.val else none

def optionalIdToProto (valueId : Option BlockHash) : List Byte :=
  (valueId.map fun value => beBytes 32 value.val).getD []

def optionalIdFromProto (bytes : List Byte) : Option BlockHash :=
  if bytes.length = 32 then some (Fin.ofNat _ (beValue bytes)) else none

def proposalMonitorToProto (monitor : ProposalMonitor) : Proto.ProposalMonitorData where
  height := heightToProto monitor.height
  proposer := some (addressToProto monitor.proposer)
  startTimeMs := millis monitor.startTime
  receiveTimeMs := timeToProto monitor.proposalReceiveTime
  valueId := optionalIdToProto monitor.valueId
  successfulState := successStateAsU32 monitor.successful
  synced := monitor.synced

def proposalMonitorFromProto (message : Proto.ProposalMonitorData) :
    Except DecodeError ProposalMonitor := do
  let proposer ← lifted addressFromProto
    (← requiredField "Missing proposer in proposal monitor data" message.proposer)
  .ok { height := heightFromProto message.height
        proposer := proposer
        startTime := message.startTimeMs.val
        proposalReceiveTime := timeFromProto message.receiveTimeMs
        valueId := optionalIdFromProto message.valueId
        successful := successStateFromU32 message.successfulState
        synced := message.synced }

/-- Times that 64 bits of milliseconds can hold; a receive time lies after the epoch. -/
structure ProposalMonitor.Timely (monitor : ProposalMonitor) : Prop where
  start : monitor.startTime < 2 ^ 64
  received : ∀ time ∈ monitor.proposalReceiveTime, 0 < time ∧ time < 2 ^ 64

theorem val_millis {time : ℕ} (small : time < 2 ^ 64) : (millis time).val = time :=
  Nat.mod_eq_of_lt small

theorem timeFromProto_timeToProto {time : Option ℕ}
    (timely : ∀ instant ∈ time, 0 < instant ∧ instant < 2 ^ 64) :
    timeFromProto (timeToProto time) = time := by
  cases time with
  | none => rfl
  | some instant =>
    obtain ⟨positive, small⟩ := timely instant rfl
    show timeFromProto (millis instant) = _
    rw [timeFromProto, val_millis small, if_pos positive]

theorem optionalIdFromProto_optionalIdToProto (valueId : Option BlockHash) :
    optionalIdFromProto (optionalIdToProto valueId) = valueId := by
  cases valueId with
  | none => rfl
  | some value =>
    show optionalIdFromProto (beBytes 32 value.val) = _
    rw [optionalIdFromProto, if_pos (length_beBytes 32 value.val),
      beValue_beBytes (value.isLt.trans_eq (by norm_num))]
    exact congrArg some (Fin.ofNat_val_eq_self value)

theorem inverts_proposalMonitor :
    Inverts (fun monitor => some (proposalMonitorToProto monitor)) proposalMonitorFromProto
      ProposalMonitor.Timely := by
  intro monitor message timely converted
  obtain rfl := Option.some.inj converted
  have state : successStateFromU32 (successStateAsU32 monitor.successful) = monitor.successful := by
    cases monitor.successful <;> rfl
  simp only [proposalMonitorFromProto, proposalMonitorToProto, requiredField, lifted,
    addressFromProto_addressToProto, Except.mapError, bind, Except.bind, val_millis timely.start,
    timeFromProto_timeToProto timely.received, optionalIdFromProto_optionalIdToProto, state]
  rfl

/-! ### All codecs -/

def encodeCertificate (format : WireFormat Proto.StoreCommitCertificate) :
    StoredCommitCertificate → Option (List Byte) :=
  encodeWith 1 format encodeStoreCommitCertificate

def decodeCertificate (format : WireFormat Proto.StoreCommitCertificate) :
    List Byte → Except DecodeError StoredCommitCertificate :=
  decodeWith 1 format .protobuf (lifted decodeStoreCommitCertificate)

section All

variable {PeerId : Type} (formats : Formats PeerId)

def encodeExecutionPayload : ExecutionPayload → Option (List Byte) :=
  encodeWith 3 formats.executionPayload some

def decodeExecutionPayload : List Byte → Except DecodeError ExecutionPayload :=
  decodeWith 3 formats.executionPayload .ssz .ok

def encodeBlock : ConsensusBlock → Option (List Byte) := encodeWith 1 formats.block blockAsSszData

def decodeBlock : List Byte → Except DecodeError ConsensusBlock :=
  decodeWith 1 formats.block .ssz blockFromSszData

def encodeProposalParts : ProposalParts → Option (List Byte) :=
  encodeWith 1 formats.proposalParts proposalPartsToProto

def decodeProposalParts : List Byte → Except DecodeError ProposalParts :=
  decodeWith 1 formats.proposalParts .protobuf (lifted proposalPartsFromProto)

def encodeMisbehaviorEvidence : StoredMisbehaviorEvidence → Option (List Byte) :=
  encodeWith 1 formats.misbehaviorEvidence misbehaviorEvidenceToProto

def decodeMisbehaviorEvidence : List Byte → Except DecodeError StoredMisbehaviorEvidence :=
  decodeWith 1 formats.misbehaviorEvidence .protobuf misbehaviorEvidenceFromProto

def encodeInvalidPayloads : StoredInvalidPayloads → Option (List Byte) :=
  encodeWith 1 formats.invalidPayloads (invalidPayloadsToProto formats.executionPayload)

def decodeInvalidPayloads : List Byte → Except DecodeError StoredInvalidPayloads :=
  decodeWith 1 formats.invalidPayloads .protobuf (invalidPayloadsFromProto formats.executionPayload)

def encodeProposalMonitorData : ProposalMonitor → Option (List Byte) :=
  encodeWith 1 formats.proposalMonitorData fun monitor => some (proposalMonitorToProto monitor)

def decodeProposalMonitorData : List Byte → Except DecodeError ProposalMonitor :=
  decodeWith 1 formats.proposalMonitorData .protobuf proposalMonitorFromProto

/-- `Codec<LivenessMsg>`. -/
def encodeLivenessMsg : LivenessMsg → Option (List Byte) :=
  encodeVia formats.livenessMessage livenessMsgToProto

def decodeLivenessMsg : List Byte → Except ProtoError LivenessMsg :=
  decodeVia formats.livenessMessage .decode livenessMsgFromProto

/-- `Codec<sync::Status>`. -/
def encodeStatus : Status PeerId → Option (List Byte) :=
  encodeVia formats.status fun status => some (statusToProto formats.peerId status)

def decodeStatus : List Byte → Except ProtoError (Status PeerId) :=
  decodeVia formats.status .decode (statusFromProto formats.peerId)

/-- `Codec<sync::Request>`. -/
def encodeRequest : ValueRequest → Option (List Byte) :=
  encodeVia formats.syncRequest fun request => some (syncRequestToProto request)

def decodeRequest : List Byte → Except ProtoError ValueRequest :=
  decodeVia formats.syncRequest .decode syncRequestFromProto

/-- `Codec<sync::Response>`. -/
def encodeResponse : ValueResponse → Option (List Byte) :=
  encodeVia formats.syncResponse encodeSyncResponse

def decodeResponse : List Byte → Except ProtoError ValueResponse :=
  decodeVia formats.syncResponse .decode decodeSyncResponse

/-- **No codec loses anything**, up to the limits of the decoders. -/
structure LosesNothing : Prop where
  consensus : Inverts encodeSignedConsensusMsg decodeSignedConsensusMsg fun msg => msg.extension = none
  stream : Inverts (encodeStreamMessage formats.streamMessage formats.proposalPart)
    (decodeStreamMessage formats.streamMessage formats.proposalPart) Sized
  liveness : Inverts (encodeLivenessMsg formats) (decodeLivenessMsg formats) LivenessMsg.Bounded
  status : Inverts (encodeStatus formats) (decodeStatus formats) fun _ => True
  request : Inverts (encodeRequest formats) (decodeRequest formats) fun _ => True
  response : Inverts (encodeResponse formats) (decodeResponse formats) ValueResponse.Bounded
  certificate : Inverts (encodeCertificate formats.commitCertificate)
    (decodeCertificate formats.commitCertificate) StoredCommitCertificate.Bounded
  payload : Inverts (encodeExecutionPayload formats) (decodeExecutionPayload formats) fun _ => True
  block : Inverts (encodeBlock formats) (decodeBlock formats) fun _ => True
  parts : Inverts (encodeProposalParts formats) (decodeProposalParts formats)
    fun parts => parts.signature.length = 64
  evidence : Inverts (encodeMisbehaviorEvidence formats) (decodeMisbehaviorEvidence formats)
    fun evidence => ∀ validator ∈ evidence.validators, ∀ double ∈ validator.doubleVotes,
      DoubleVote.Plain double
  invalidPayloads : Inverts (encodeInvalidPayloads formats) (decodeInvalidPayloads formats)
    fun _ => True
  monitor : Inverts (encodeProposalMonitorData formats) (decodeProposalMonitorData formats)
    ProposalMonitor.Timely

/-- **Whatever a codec of the network or of the store encodes, it decodes to the same value**: every
message whose round is not nil (a nil one is not encoded) and whose votes carry no extension, within
the bounds on the signatures of a certificate, on the values of a response and on times. -/
theorem codecs_lose_nothing : LosesNothing formats where
  consensus _ _ plain encoded := decode_encode_signedConsensusMsg plain encoded
  stream := inverts_streamMessage
  liveness := inverts_via inverts_livenessMsg
  status := inverts_via (inverts_status formats.peerId)
  request := inverts_via inverts_syncRequest
  response := inverts_via inverts_syncResponse
  certificate := inverts_with (inverts_lifted inverts_storeCommitCertificate)
  payload := inverts_with fun _ _ _ wrote => congrArg _ (Option.some.inj wrote).symm
  block := inverts_with inverts_block
  parts := inverts_with (inverts_lifted inverts_proposalParts)
  evidence := inverts_with inverts_misbehaviorEvidence
  invalidPayloads := inverts_with (inverts_invalidPayloads formats.executionPayload)
  monitor := inverts_with inverts_proposalMonitor

end All

/-! ### Past the limits -/

/-- A certificate with more signatures than a decoder takes. -/
def crowdedCertificate : StoredCommitCertificate where
  certificate :=
    ⟨1, .some 0, 5, List.replicate (maxSignaturesPerCertificate + 1) ⟨3, List.replicate 64 0⟩⟩
  certificateType := .minimal
  proposer := none

/-- A response with more values than a decoder takes. -/
def crowdedResponse : ValueResponse where
  startHeight := 1
  values := List.replicate (maxSyncValues + 1) ⟨[], ⟨1, .some 0, 5, []⟩⟩

/-- A monitor that started when 64 bits of milliseconds had passed. -/
def lateMonitor : ProposalMonitor := ⟨1, 3, 2 ^ 64, none, none, .unknown, false⟩

theorem mapM_replicate {α β : Type} {write : α → Option β} {value : α} {written : β}
    (wrote : write value = some written) (count : ℕ) :
    (List.replicate count value).mapM write = some (List.replicate count written) := by
  induction count with
  | zero => rfl
  | succ count ih =>
    rw [List.replicate_succ, List.mapM_cons, wrote, ih]
    rfl

/-- **The encoders do not know the limits of their decoders**: with one signature or one value too
many the bytes are rejected, and a time past 64 bits comes back as another one. -/
theorem decoders_reject_what_encoders_write :
    (∀ format : WireFormat Proto.StoreCommitCertificate, ∃ bytes,
        encodeCertificate format crowdedCertificate = some bytes ∧
        ∀ value, decodeCertificate format bytes ≠ .ok value) ∧
      (∀ formats : Formats Unit, ∃ bytes, encodeResponse formats crowdedResponse = some bytes ∧
        ∀ value, decodeResponse formats bytes ≠ .ok value) ∧
      ∀ formats : Formats Unit, ∃ bytes, encodeProposalMonitorData formats lateMonitor = some bytes ∧
        decodeProposalMonitorData formats bytes = .ok { lateMonitor with startTime := 0 } := by
  refine ⟨fun formats => ⟨_, rfl, ?_⟩, fun formats => ?_, fun formats => ⟨_, rfl, ?_⟩⟩
  · intro value read
    have many : maxSignaturesPerCertificate <
        (crowdedCertificate.certificate.commitSignatures.map commitSignatureToProto).length := by
      rw [List.length_map]
      exact (Nat.lt_succ_self _).trans_eq List.length_replicate.symm
    simp only [decodeCertificate, decodeWith, decodeVersioned, if_pos, decodeVia,
      WireFormat.fromBytes_encode, lifted, decodeStoreCommitCertificate,
      any_extension_commitSignatureToProto, if_neg Bool.false_ne_true, decodeCommitCertificateFields,
      if_pos many, bind, Except.bind, Except.mapError] at read
    cases read
  · have wrote : encodeSyncedValue ⟨[], ⟨1, .some 0, 5, []⟩⟩ =
        some ⟨[], some ⟨1, 0, some (valueIdToProto 5), []⟩⟩ := rfl
    have all := mapM_replicate wrote (maxSyncValues + 1)
    refine ⟨formats.syncResponse.encode ⟨some ⟨1, List.replicate (maxSyncValues + 1)
      ⟨[], some ⟨1, 0, some (valueIdToProto 5), []⟩⟩⟩⟩, ?_, ?_⟩
    · unfold encodeResponse encodeVia encodeSyncResponse
      rw [show crowdedResponse.values.mapM encodeSyncedValue = _ from all]
      rfl
    · intro value read
      have many : maxSyncValues < (List.replicate (maxSyncValues + 1)
          (⟨[], some ⟨1, 0, some (valueIdToProto 5), []⟩⟩ : Proto.SyncedValue)).length :=
        (Nat.lt_succ_self _).trans_eq List.length_replicate.symm
      simp only [decodeResponse, decodeVia, WireFormat.fromBytes_encode, decodeSyncResponse, required,
        if_pos many, bind, Except.bind] at read
      cases read
  · simp only [decodeProposalMonitorData, decodeWith, decodeVersioned, if_pos, decodeVia,
      WireFormat.fromBytes_encode, bind, Except.bind, proposalMonitorFromProto, proposalMonitorToProto,
      requiredField, lifted, addressFromProto_addressToProto, Except.mapError]
    rfl

end StoreCodec

end ArcNode.Codec
