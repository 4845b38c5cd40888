/-
**The codec of liveness and sync messages.**

Votes, polka and round certificates that a validator repeats, and the status, requests and responses
of peers that synchronize. A decoder bounds the signatures of a certificate and the values of a
response (`maxSignaturesPerCertificate`, `maxSyncValues`); the encoders do not look at these bounds.
Within them, whatever an encoder writes its decoder reads back (**`inverts_livenessMsg`**,
**`inverts_syncResponse`**).
-/

import ArcNode.Codec.Parts

namespace ArcNode.Codec

open ArcNode.Lib ArcNode.Lib.Protobuf ArcNode.Types

/-! ### Messages on the wire -/

namespace Proto

structure RoundSignature where
  voteType : Fin (2 ^ 32)
  validatorAddress : Option Address
  signature : Option Signature
  valueId : Option ValueId

structure RoundCertificate where
  height : Fin (2 ^ 64)
  round : Fin (2 ^ 32)
  certType : Fin (2 ^ 32)
  signatures : List RoundSignature

inductive LivenessMessage.Message where
  | vote (vote : SignedMessage)
  | polkaCertificate (certificate : PolkaCertificate)
  | roundCertificate (certificate : RoundCertificate)

structure LivenessMessage where
  message : Option LivenessMessage.Message

structure Status where
  peerId : Option BytesMessage
  height : Fin (2 ^ 64)
  earliestHeight : Fin (2 ^ 64)

structure ValueRequest where
  rangeStart : Fin (2 ^ 64)
  rangeEnd : Fin (2 ^ 64)

structure SyncRequest where
  request : Option ValueRequest

structure Extension where
  data : List Byte
  signature : Option Signature
  deriving DecidableEq, Encodable

instance : Message Extension where
  default := ⟨[], none⟩
  fields message := bytesField 1 message.data ++ messageField 2 message.signature
  mergeField limit message field := match field.number with
    | 1 => (mergeBytes field.wire).map fun bytes => { message with data := bytes }
    | 2 => (mergeMessage limit message.signature field.wire).map fun signature =>
      { message with signature := some signature }
    | _ => skipField limit message

structure CommitSignature where
  validatorAddress : Option Address
  signature : Option Signature
  extension : Option Extension
  deriving DecidableEq, Encodable

instance : Message CommitSignature where
  default := ⟨none, none, none⟩
  fields message := messageField 1 message.validatorAddress ++
    (messageField 2 message.signature ++ messageField 3 message.extension)
  mergeField limit message field := match field.number with
    | 1 => (mergeMessage limit message.validatorAddress field.wire).map fun address =>
      { message with validatorAddress := some address }
    | 2 => (mergeMessage limit message.signature field.wire).map fun signature =>
      { message with signature := some signature }
    | 3 => (mergeMessage limit message.extension field.wire).map fun extension =>
      { message with extension := some extension }
    | _ => skipField limit message

structure CommitCertificate where
  height : Fin (2 ^ 64)
  round : Fin (2 ^ 32)
  valueId : Option ValueId
  signatures : List CommitSignature

structure SyncedValue where
  valueBytes : List Byte
  certificate : Option CommitCertificate

structure ValueResponse where
  startHeight : Fin (2 ^ 64)
  values : List SyncedValue

structure SyncResponse where
  response : Option ValueResponse

end Proto

namespace ProtobufCodec

/-! ### Signed messages -/

/-- `encode_vote`; `none` is the panic on a nil round. -/
def encodeVote (vote : Vote × SignatureBytes) : Option Proto.SignedMessage :=
  (voteToProto vote.1).map fun message => ⟨some (.vote message), some (encodeSignature vote.2)⟩

def decodeVote (message : Proto.SignedMessage) : Except ProtoError (Vote × SignatureBytes) := do
  let signature ← required "SignedMessage" "signature" message.signature
  match message.message with
  | some (.vote proto) =>
    let bytes ← decodeSignature signature
    let vote ← voteFromProto proto
    .ok (vote, bytes)
  | _ => .error (.other "Invalid message type: not a vote")

/-- `encode_signed_proposal`; `none` is the panic on a nil round. -/
def encodeSignedProposal (proposal : Proposal × SignatureBytes) : Option Proto.SignedMessage :=
  (proposalToProto proposal.1).map fun message =>
    ⟨some (.proposal message), some (encodeSignature proposal.2)⟩

def decodeSignedProposal (message : Proto.SignedMessage) :
    Except ProtoError (Proposal × SignatureBytes) := do
  let signature ← required "SignedMessage" "signature" message.signature
  match message.message with
  | some (.proposal proto) =>
    let bytes ← decodeSignature signature
    let proposal ← proposalFromProto proto
    .ok (proposal, bytes)
  | _ => .error (.other "Invalid message type: not a proposal")

theorem inverts_vote : Inverts encodeVote decodeVote fun vote => vote.1.extension = none := by
  intro vote message plain converted
  obtain ⟨proto, wrote, rfl⟩ := Option.map_eq_some_iff.mp converted
  have back := (voteFromProto_voteToProto plain wrote).1
  simp only [decodeVote, required, decodeSignature_encodeSignature, back, bind, Except.bind]

theorem inverts_signedProposal : Inverts encodeSignedProposal decodeSignedProposal fun _ => True := by
  intro proposal message _ converted
  obtain ⟨proto, wrote, rfl⟩ := Option.map_eq_some_iff.mp converted
  have back := (proposalFromProto_proposalToProto wrote).1
  simp only [decodeSignedProposal, required, decodeSignature_encodeSignature, back, bind, Except.bind]

/-! ### Liveness messages -/

def roundCertificateTypeToProto : RoundCertificateType → Fin (2 ^ 32)
  | .precommit => 0
  | .skip => 1

def roundCertificateTypeFromProto (number : Fin (2 ^ 32)) : Except ProtoError RoundCertificateType :=
  if number = 0 then .ok .precommit
  else if number = 1 then .ok .skip
  else .error (.other "Unknown RoundCertificateType")

def roundSignatureToProto (signature : RoundSignature) : Proto.RoundSignature where
  voteType := encodeVotetype signature.voteType
  validatorAddress := some (addressToProto signature.address)
  signature := some (encodeSignature signature.signature)
  valueId := match signature.valueId with
    | .nil => none
    | .val value => some (valueIdToProto value)

def roundSignatureFromProto (message : Proto.RoundSignature) : Except ProtoError RoundSignature := do
  let address ← required "RoundCertificate" "validator_address" message.validatorAddress
  let signature ← required "RoundCertificate" "signature" message.signature
  let valueId ← match message.valueId with
    | none => .ok .nil
    | some value => (valueIdFromProto value).map NilOrVal.val
  let bytes ← decodeSignature signature
  let address ← addressFromProto address
  .ok ⟨decodeVotetype message.voteType, valueId, address, bytes⟩

/-- `encode_round_certificate`; `none` is the panic on a nil round. -/
def encodeRoundCertificate (certificate : RoundCertificate) : Option Proto.RoundCertificate :=
  certificate.round.asU32.map fun round =>
    { height := heightToProto certificate.height
      round := round
      certType := roundCertificateTypeToProto certificate.certType
      signatures := certificate.roundSignatures.map roundSignatureToProto }

def decodeRoundCertificate (message : Proto.RoundCertificate) :
    Except ProtoError RoundCertificate := do
  if maxSignaturesPerCertificate < message.signatures.length then
    .error (.other ("RoundCertificate signature count " ++ toString message.signatures.length ++
      " exceeds maximum " ++ toString maxSignaturesPerCertificate))
  else
    let certType ← roundCertificateTypeFromProto message.certType
    let signatures ← message.signatures.mapM roundSignatureFromProto
    .ok { height := heightFromProto message.height
          round := .some message.round
          certType := certType
          roundSignatures := signatures }

def livenessMsgToProto : LivenessMsg → Option Proto.LivenessMessage
  | .vote vote signature => (encodeVote (vote, signature)).map fun message => ⟨some (.vote message)⟩
  | .polkaCertificate certificate =>
    (encodePolkaCertificate certificate).map fun message => ⟨some (.polkaCertificate message)⟩
  | .skipRoundCertificate certificate =>
    (encodeRoundCertificate certificate).map fun message => ⟨some (.roundCertificate message)⟩

def livenessMsgFromProto (message : Proto.LivenessMessage) : Except ProtoError LivenessMsg := do
  match message.message with
  | some (.vote vote) => (decodeVote vote).map fun signed => .vote signed.1 signed.2
  | some (.polkaCertificate certificate) =>
    (decodePolkaCertificate certificate).map .polkaCertificate
  | some (.roundCertificate certificate) =>
    (decodeRoundCertificate certificate).map .skipRoundCertificate
  | none => .error (.missingField "LivenessMessage" "message")

theorem roundSignatureFromProto_roundSignatureToProto (signature : RoundSignature) :
    roundSignatureFromProto (roundSignatureToProto signature) = .ok signature := by
  obtain ⟨voteType, valueId, address, bytes⟩ := signature
  cases valueId with
  | nil =>
    simp only [roundSignatureFromProto, roundSignatureToProto, required,
      decodeSignature_encodeSignature, addressFromProto_addressToProto, bind, Except.bind,
      decodeVotetype_encodeVotetype]
  | val value =>
    simp only [roundSignatureFromProto, roundSignatureToProto, required,
      valueIdFromProto_valueIdToProto, decodeSignature_encodeSignature,
      addressFromProto_addressToProto, bind, Except.bind, Except.map, decodeVotetype_encodeVotetype]

theorem inverts_roundCertificate :
    Inverts encodeRoundCertificate decodeRoundCertificate fun certificate =>
      certificate.roundSignatures.length ≤ maxSignaturesPerCertificate := by
  intro certificate message bounded converted
  obtain ⟨height, round, certType, signatures⟩ := certificate
  obtain ⟨number, same, rfl⟩ := written_round converted
  have within := map_within bounded roundSignatureToProto
  have typ : roundCertificateTypeFromProto (roundCertificateTypeToProto certType) = .ok certType := by
    cases certType <;> rfl
  have read : (signatures.map roundSignatureToProto).mapM roundSignatureFromProto = .ok signatures :=
    mapM_map fun signature _ => roundSignatureFromProto_roundSignatureToProto signature
  simp only [decodeRoundCertificate, if_neg within, typ, read, bind, Except.bind, same]
  rfl

/-- A liveness message that the decoder takes: no extension, not too many signatures. -/
def LivenessMsg.Bounded : LivenessMsg → Prop
  | .vote vote _ => vote.extension = none
  | .polkaCertificate certificate =>
    certificate.polkaSignatures.length ≤ maxSignaturesPerCertificate
  | .skipRoundCertificate certificate =>
    certificate.roundSignatures.length ≤ maxSignaturesPerCertificate

theorem inverts_livenessMsg :
    Inverts livenessMsgToProto livenessMsgFromProto LivenessMsg.Bounded := by
  intro msg message bounded converted
  cases msg with
  | vote vote signature =>
    obtain ⟨proto, wrote, rfl⟩ := Option.map_eq_some_iff.mp converted
    have back := inverts_vote (vote, signature) proto bounded wrote
    simp only [livenessMsgFromProto, back, Except.map]
  | polkaCertificate certificate =>
    obtain ⟨proto, wrote, rfl⟩ := Option.map_eq_some_iff.mp converted
    have back := inverts_polkaCertificate certificate proto bounded wrote
    simp only [livenessMsgFromProto, back, Except.map]
  | skipRoundCertificate certificate =>
    obtain ⟨proto, wrote, rfl⟩ := Option.map_eq_some_iff.mp converted
    have back := inverts_roundCertificate certificate proto bounded wrote
    simp only [livenessMsgFromProto, back, Except.map]

/-! ### Status and requests -/

section Sync

variable {PeerId : Type} (peerIds : WireFormat PeerId)

def statusToProto (status : Status PeerId) : Proto.Status where
  peerId := some ⟨peerIds.encode status.peerId⟩
  height := heightToProto status.tipHeight
  earliestHeight := heightToProto status.historyMinHeight

def statusFromProto (message : Proto.Status) : Except ProtoError (Status PeerId) := do
  let proto ← required "Status" "peer_id" message.peerId
  let peerId ← peerIds.fromBytes (.other "Invalid peer ID") proto.bytes
  .ok ⟨peerId, heightFromProto message.height, heightFromProto message.earliestHeight⟩

theorem inverts_status :
    Inverts (fun status => some (statusToProto peerIds status)) (statusFromProto peerIds)
      fun _ => True := by
  intro status message _ converted
  obtain rfl := Option.some.inj converted
  simp only [statusFromProto, statusToProto, required, peerIds.fromBytes_encode, bind, Except.bind]
  rfl

end Sync

def syncRequestToProto (request : ValueRequest) : Proto.SyncRequest :=
  ⟨some ⟨heightToProto request.rangeStart, heightToProto request.rangeEnd⟩⟩

def syncRequestFromProto (message : Proto.SyncRequest) : Except ProtoError ValueRequest := do
  let request ← required "SyncRequest" "request" message.request
  .ok ⟨heightFromProto request.rangeStart, heightFromProto request.rangeEnd⟩

theorem inverts_syncRequest :
    Inverts (fun request => some (syncRequestToProto request)) syncRequestFromProto
      fun _ => True := by
  intro request message _ converted
  obtain rfl := Option.some.inj converted
  rfl

/-! ### Responses -/

/-- Upper bound on the values of one response. -/
def maxSyncValues : ℕ := 1000

def encodeExtension (extension : SignedExtension) : Proto.Extension :=
  ⟨extension.message, some (encodeSignature extension.signature)⟩

def decodeExtension (message : Proto.Extension) : Except ProtoError SignedExtension := do
  let signature ← required "Extension" "signature" message.signature
  let bytes ← decodeSignature signature
  .ok ⟨message.data, bytes⟩

def extendedCommitSignatureToProto (signature : ExtendedCommitSignature) : Proto.CommitSignature where
  validatorAddress := some (addressToProto signature.address)
  signature := some (encodeSignature signature.signature)
  extension := signature.extension.map encodeExtension

def extendedCommitSignatureFromProto (message : Proto.CommitSignature) :
    Except ProtoError ExtendedCommitSignature := do
  let address ← required "CommitSignature" "validator_address" message.validatorAddress
  let signature ← required "CommitSignature" "signature" message.signature
  let extension ← message.extension.mapM decodeExtension
  let address ← addressFromProto address
  let bytes ← decodeSignature signature
  .ok ⟨address, bytes, extension⟩

/-- `encode_sync_commit_certificate`; `none` is the panic on a nil round. -/
def encodeSyncCommitCertificate (certificate : ExtendedCommitCertificate) :
    Option Proto.CommitCertificate :=
  certificate.round.asU32.map fun round =>
    { height := heightToProto certificate.height
      round := round
      valueId := some (valueIdToProto certificate.valueId)
      signatures := certificate.commitSignatures.map extendedCommitSignatureToProto }

def decodeSyncCommitCertificate (message : Proto.CommitCertificate) :
    Except ProtoError ExtendedCommitCertificate := do
  if maxSignaturesPerCertificate < message.signatures.length then
    .error (.other ("ExtendedCommitCertificate signature count " ++
      toString message.signatures.length ++ " exceeds maximum " ++
      toString maxSignaturesPerCertificate))
  else
    let valueId ← valueIdFromProto (← required "CommitCertificate" "value_id" message.valueId)
    let signatures ← message.signatures.mapM extendedCommitSignatureFromProto
    .ok { height := heightFromProto message.height
          round := .some message.round
          valueId := valueId
          commitSignatures := signatures }

def encodeSyncedValue (value : RawDecidedValue) : Option Proto.SyncedValue :=
  (encodeSyncCommitCertificate value.certificate).map fun certificate =>
    ⟨value.valueBytes, some certificate⟩

def decodeSyncedValue (message : Proto.SyncedValue) : Except ProtoError RawDecidedValue := do
  let certificate ← required "SyncedValue" "certificate" message.certificate
  let certificate ← decodeSyncCommitCertificate certificate
  .ok ⟨message.valueBytes, certificate⟩

def encodeSyncResponse (response : ValueResponse) : Option Proto.SyncResponse :=
  (response.values.mapM encodeSyncedValue).map fun values =>
    ⟨some ⟨heightToProto response.startHeight, values⟩⟩

def decodeSyncResponse (message : Proto.SyncResponse) : Except ProtoError ValueResponse := do
  let response ← required "SyncResponse" "messages" message.response
  if maxSyncValues < response.values.length then
    .error (.other ("ValueResponse value count " ++ toString response.values.length ++
      " exceeds maximum " ++ toString maxSyncValues))
  else
    let values ← response.values.mapM decodeSyncedValue
    .ok ⟨heightFromProto response.startHeight, values⟩

theorem extendedCommitSignatureFromProto_extendedCommitSignatureToProto
    (signature : ExtendedCommitSignature) :
    extendedCommitSignatureFromProto (extendedCommitSignatureToProto signature) = .ok signature := by
  obtain ⟨address, bytes, extension⟩ := signature
  have back : (extension.map encodeExtension).mapM decodeExtension = .ok extension := by
    refine mapM_map_option (fun one => ?_) extension
    simp only [decodeExtension, encodeExtension, required, decodeSignature_encodeSignature, bind,
      Except.bind]
  simp only [extendedCommitSignatureFromProto, extendedCommitSignatureToProto, required, back,
    addressFromProto_addressToProto, decodeSignature_encodeSignature, bind, Except.bind]

theorem inverts_syncedValue : Inverts encodeSyncedValue decodeSyncedValue fun value =>
      value.certificate.commitSignatures.length ≤ maxSignaturesPerCertificate := by
  intro value message bounded converted
  obtain ⟨valueBytes, height, round, valueId, signatures⟩ := value
  obtain ⟨proto, wrote, rfl⟩ := Option.map_eq_some_iff.mp converted
  obtain ⟨number, same, rfl⟩ := written_round wrote
  have within := map_within bounded extendedCommitSignatureToProto
  have read : (signatures.map extendedCommitSignatureToProto).mapM
      extendedCommitSignatureFromProto = .ok signatures :=
    mapM_map fun signature _ =>
      extendedCommitSignatureFromProto_extendedCommitSignatureToProto signature
  simp only [decodeSyncedValue, decodeSyncCommitCertificate, required, if_neg within,
    valueIdFromProto_valueIdToProto, read, bind, Except.bind, same]
  rfl

/-- A response that the decoder takes. -/
structure ValueResponse.Bounded (response : ValueResponse) : Prop where
  values : response.values.length ≤ maxSyncValues
  signatures : ∀ value ∈ response.values,
    value.certificate.commitSignatures.length ≤ maxSignaturesPerCertificate

theorem length_of_mapM {α β : Type} {write : α → Option β} {values : List α} {written : List β}
    (wrote : values.mapM write = some written) : written.length = values.length := by
  induction values generalizing written with
  | nil =>
    obtain rfl : [] = written := Option.some.inj wrote
    rfl
  | cons value rest ih =>
    rw [List.mapM_cons] at wrote
    obtain ⟨first, -, others⟩ := Option.bind_eq_some_iff.mp wrote
    obtain ⟨tail, later, same⟩ := Option.bind_eq_some_iff.mp others
    obtain rfl : first :: tail = written := Option.some.inj same
    rw [List.length_cons, List.length_cons, ih later]

theorem inverts_syncResponse :
    Inverts encodeSyncResponse decodeSyncResponse ValueResponse.Bounded := by
  intro response message bounded converted
  obtain ⟨values, wrote, rfl⟩ := Option.map_eq_some_iff.mp converted
  have within : ¬ maxSyncValues < values.length := by
    rw [length_of_mapM wrote]
    exact not_lt.mpr bounded.values
  have read : values.mapM decodeSyncedValue = .ok response.values :=
    inverts_syncedValue.mapM response.values values bounded.signatures wrote
  simp only [decodeSyncResponse, required, if_neg within, read, bind, Except.bind]
  rfl

end ProtobufCodec

end ArcNode.Codec
