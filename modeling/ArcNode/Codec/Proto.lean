/-
**The protobuf codec of consensus messages.**

`Proto` holds the message types of the `.proto` files, with what is derived for them: the fields
each one writes, with numbers and defaults, and how a field is merged. `ProtobufCodec` converts the
messages of consensus to these types and back, with the checks of the decoder: missing nested
messages, byte strings of the wrong length, too many signatures. A nil round has no encoding: the
encoder panics (`none` here). Whatever is encoded is decoded
(**`decode_encode_signedConsensusMsg`**, **`decode_encode_proposedValue`**,
**`decode_encode_polkaCertificate`**).
-/

import ArcNode.Lib.Protobuf
import ArcNode.Lib.Inverse
import ArcNode.Types.Message

namespace ArcNode.Codec

open ArcNode.Lib ArcNode.Lib.Protobuf ArcNode.Types

/-! ### Messages on the wire -/

namespace Proto

structure BytesMessage where
  bytes : List Byte
  deriving DecidableEq

instance : Message BytesMessage where
  default := ⟨[]⟩
  fields message := bytesField 1 message.bytes
  mergeField limit message field := match field.number with
    | 1 => (mergeBytes field.wire).map fun bytes => { message with bytes := bytes }
    | _ => skipField limit message

abbrev Address := BytesMessage

abbrev Value := BytesMessage

abbrev ValueId := BytesMessage

abbrev Signature := BytesMessage

structure Vote where
  voteType : Fin (2 ^ 32)
  height : Fin (2 ^ 64)
  round : Fin (2 ^ 32)
  value : Option ValueId
  validatorAddress : Option Address

instance : Message Vote where
  default := ⟨0, 0, 0, none, none⟩
  fields message :=
    scalarField 1 message.voteType.val ++ (scalarField 2 message.height.val ++
      (scalarField 3 message.round.val ++
        (messageField 4 message.value ++ messageField 5 message.validatorAddress)))
  mergeField limit message field := match field.number with
    | 1 => (mergeVarint field.wire).map fun value => { message with voteType := Fin.ofNat _ value }
    | 2 => (mergeVarint field.wire).map fun value => { message with height := Fin.ofNat _ value }
    | 3 => (mergeVarint field.wire).map fun value => { message with round := Fin.ofNat _ value }
    | 4 => (mergeMessage limit message.value field.wire).map fun value =>
      { message with value := some value }
    | 5 => (mergeMessage limit message.validatorAddress field.wire).map fun address =>
      { message with validatorAddress := some address }
    | _ => skipField limit message

structure Proposal where
  height : Fin (2 ^ 64)
  round : Fin (2 ^ 32)
  value : Option Value
  polRound : Option (Fin (2 ^ 32))
  validatorAddress : Option Address

instance : Message Proposal where
  default := ⟨0, 0, none, none, none⟩
  fields message :=
    scalarField 1 message.height.val ++ (scalarField 2 message.round.val ++
      (messageField 3 message.value ++ (optionalField 4 (message.polRound.map Fin.val) ++
        messageField 5 message.validatorAddress)))
  mergeField limit message field := match field.number with
    | 1 => (mergeVarint field.wire).map fun value => { message with height := Fin.ofNat _ value }
    | 2 => (mergeVarint field.wire).map fun value => { message with round := Fin.ofNat _ value }
    | 3 => (mergeMessage limit message.value field.wire).map fun value =>
      { message with value := some value }
    | 4 => (mergeVarint field.wire).map fun value =>
      { message with polRound := some (Fin.ofNat _ value) }
    | 5 => (mergeMessage limit message.validatorAddress field.wire).map fun address =>
      { message with validatorAddress := some address }
    | _ => skipField limit message

inductive SignedMessage.Message where
  | proposal (proposal : Proposal)
  | vote (vote : Vote)

structure SignedMessage where
  message : Option SignedMessage.Message
  signature : Option Signature

def SignedMessage.proposal (signed : SignedMessage) : Option Proposal :=
  match signed.message with
  | some (.proposal proposal) => some proposal
  | _ => none

def SignedMessage.vote (signed : SignedMessage) : Option Vote :=
  match signed.message with
  | some (.vote vote) => some vote
  | _ => none

-- a field of the `oneof` is merged into the same variant and replaces another one
instance : Message SignedMessage where
  default := ⟨none, none⟩
  fields signed :=
    messageField 1 signed.proposal ++ (messageField 2 signed.vote ++ messageField 3 signed.signature)
  mergeField limit signed field := match field.number with
    | 1 => (mergeMessage limit signed.proposal field.wire).map fun proposal =>
      { signed with message := some (.proposal proposal) }
    | 2 => (mergeMessage limit signed.vote field.wire).map fun vote =>
      { signed with message := some (.vote vote) }
    | 3 => (mergeMessage limit signed.signature field.wire).map fun signature =>
      { signed with signature := some signature }
    | _ => skipField limit signed

structure ProposedValue where
  height : Fin (2 ^ 64)
  round : Fin (2 ^ 32)
  validRound : Option (Fin (2 ^ 32))
  proposer : Option Address
  value : Option Value
  validity : Bool

instance : Message ProposedValue where
  default := ⟨0, 0, none, none, none, false⟩
  fields message :=
    scalarField 1 message.height.val ++ (scalarField 2 message.round.val ++
      (optionalField 3 (message.validRound.map Fin.val) ++ (messageField 4 message.proposer ++
        (messageField 5 message.value ++ scalarField 6 message.validity.toNat))))
  mergeField limit message field := match field.number with
    | 1 => (mergeVarint field.wire).map fun value => { message with height := Fin.ofNat _ value }
    | 2 => (mergeVarint field.wire).map fun value => { message with round := Fin.ofNat _ value }
    | 3 => (mergeVarint field.wire).map fun value =>
      { message with validRound := some (Fin.ofNat _ value) }
    | 4 => (mergeMessage limit message.proposer field.wire).map fun address =>
      { message with proposer := some address }
    | 5 => (mergeMessage limit message.value field.wire).map fun value =>
      { message with value := some value }
    | 6 => (mergeVarint field.wire).map fun value => { message with validity := value ≠ 0 }
    | _ => skipField limit message

structure PolkaSignature where
  validatorAddress : Option Address
  signature : Option Signature

instance : Message PolkaSignature where
  default := ⟨none, none⟩
  fields message := messageField 1 message.validatorAddress ++ messageField 2 message.signature
  mergeField limit message field := match field.number with
    | 1 => (mergeMessage limit message.validatorAddress field.wire).map fun address =>
      { message with validatorAddress := some address }
    | 2 => (mergeMessage limit message.signature field.wire).map fun signature =>
      { message with signature := some signature }
    | _ => skipField limit message

structure PolkaCertificate where
  height : Fin (2 ^ 64)
  round : Fin (2 ^ 32)
  valueId : Option ValueId
  signatures : List PolkaSignature

instance : Message PolkaCertificate where
  default := ⟨0, 0, none, []⟩
  fields message :=
    scalarField 1 message.height.val ++ (scalarField 2 message.round.val ++
      (messageField 3 message.valueId ++ repeatedField 4 message.signatures))
  mergeField limit message field := match field.number with
    | 1 => (mergeVarint field.wire).map fun value => { message with height := Fin.ofNat _ value }
    | 2 => (mergeVarint field.wire).map fun value => { message with round := Fin.ofNat _ value }
    | 3 => (mergeMessage limit message.valueId field.wire).map fun value =>
      { message with valueId := some value }
    | 4 => (mergeMessage limit none field.wire).map fun signature =>
      { message with signatures := message.signatures ++ [signature] }
    | _ => skipField limit message

/-! ### Round trips on the wire -/

theorem writes_bytesMessage {message : BytesMessage} (short : message.bytes.length ≤ 64) :
    Writes 84 (Message.fields message) :=
  writes_bytesField (by decide) short (by decide)

theorem roundTrips_bytesMessage {message : BytesMessage} (short : message.bytes.length ≤ 64)
    (limit : ℕ) : RoundTrips limit message where
  fits := (writes_bytesMessage short).fits
  folds := foldlM_bytesField BytesMessage.mk (fun _ => rfl) rfl message.bytes

/-- A nested byte string of at most 64 bytes. -/
def Short (message : Option BytesMessage) : Prop := ∀ one ∈ message, one.bytes.length ≤ 64

theorem Short.writes {message : Option BytesMessage} (short : Short message) {number : ℕ}
    (known : 0 < number ∧ number < 2 ^ 29) : Writes 104 (messageField number message) :=
  writes_messageField known (by decide) fun one member => writes_bytesMessage (short one member)

theorem Short.trips {message : Option BytesMessage} (short : Short message) (limit : ℕ) :
    ∀ one ∈ message, RoundTrips limit one :=
  fun one member => roundTrips_bytesMessage (short one member) limit

theorem writes_number {number width : ℕ} (known : 0 < number ∧ number < 2 ^ 29)
    (narrow : width ≤ 2 ^ 64) (value : Fin width) : Writes 20 (scalarField number value.val) :=
  writes_scalarField known (lt_of_lt_of_le value.isLt narrow)

theorem writes_optional {number width : ℕ} (known : 0 < number ∧ number < 2 ^ 29)
    (narrow : width ≤ 2 ^ 64) (value : Option (Fin width)) :
    Writes 20 (optionalField number (value.map Fin.val)) := by
  refine writes_optionalField known fun one member => ?_
  obtain ⟨inner, -, rfl⟩ := Option.map_eq_some_iff.mp member
  exact lt_of_lt_of_le inner.isLt narrow

structure Vote.Short (message : Vote) : Prop where
  value : Proto.Short message.value
  validatorAddress : Proto.Short message.validatorAddress

theorem writes_vote {message : Vote} (short : message.Short) :
    Writes 268 (Message.fields message) :=
  (writes_number (by decide) (by decide) _).append <|
    (writes_number (by decide) (by decide) _).append <|
      (writes_number (by decide) (by decide) _).append <|
        (short.value.writes (by decide)).append (short.validatorAddress.writes (by decide))

theorem roundTrips_vote {message : Vote} (short : message.Short) (limit : ℕ) :
    RoundTrips (limit + 1) message where
  fits := (writes_vote short).fits
  folds := by
    obtain ⟨voteType, height, round, value, address⟩ := message
    refine (foldlM_front (foldlM_numberField (fun number => Vote.mk number 0 0 none none)
      (fun _ => rfl) rfl voteType)).trans ?_
    refine (foldlM_front (foldlM_numberField (fun number => Vote.mk voteType number 0 none none)
      (fun _ => rfl) rfl height)).trans ?_
    refine (foldlM_front (foldlM_numberField (fun number => Vote.mk voteType height number none none)
      (fun _ => rfl) rfl round)).trans ?_
    refine (foldlM_front (foldlM_messageField
      (fun nested => Vote.mk voteType height round nested none) (fun _ => rfl) rfl value
      (short.value.trips limit))).trans ?_
    exact foldlM_messageField (fun nested => Vote.mk voteType height round value nested)
      (fun _ => rfl) rfl address (short.validatorAddress.trips limit)

structure Proposal.Short (message : Proposal) : Prop where
  value : Proto.Short message.value
  validatorAddress : Proto.Short message.validatorAddress

theorem writes_proposal {message : Proposal} (short : message.Short) :
    Writes 268 (Message.fields message) :=
  (writes_number (by decide) (by decide) _).append <|
    (writes_number (by decide) (by decide) _).append <| (short.value.writes (by decide)).append <|
        (writes_optional (by decide) (by decide) _).append
          (short.validatorAddress.writes (by decide))

theorem roundTrips_proposal {message : Proposal} (short : message.Short) (limit : ℕ) :
    RoundTrips (limit + 1) message where
  fits := (writes_proposal short).fits
  folds := by
    obtain ⟨height, round, value, polRound, address⟩ := message
    refine (foldlM_front (foldlM_numberField (fun number => Proposal.mk number 0 none none none)
      (fun _ => rfl) rfl height)).trans ?_
    refine (foldlM_front (foldlM_numberField (fun number => Proposal.mk height number none none none)
      (fun _ => rfl) rfl round)).trans ?_
    refine (foldlM_front (foldlM_messageField
      (fun nested => Proposal.mk height round nested none none) (fun _ => rfl) rfl value
      (short.value.trips limit))).trans ?_
    refine (foldlM_front (foldlM_optionalField
      (fun number => Proposal.mk height round value number none) (fun _ => rfl) rfl
      polRound)).trans ?_
    exact foldlM_messageField (fun nested => Proposal.mk height round value polRound nested)
      (fun _ => rfl) rfl address (short.validatorAddress.trips limit)

structure SignedMessage.Short (signed : SignedMessage) : Prop where
  proposal : ∀ proposal ∈ signed.proposal, proposal.Short
  vote : ∀ vote ∈ signed.vote, vote.Short
  signature : Proto.Short signed.signature

theorem writes_signedMessage {signed : SignedMessage} (short : signed.Short) :
    Writes 680 (Message.fields signed) := by
  have proposal : Writes 288 (messageField 1 signed.proposal) :=
    writes_messageField (by decide) (by decide) fun one member =>
      writes_proposal (short.proposal one member)
  have vote : Writes 288 (messageField 2 signed.vote) :=
    writes_messageField (by decide) (by decide) fun one member =>
      writes_vote (short.vote one member)
  exact proposal.append (vote.append (short.signature.writes (by decide)))

theorem roundTrips_signedMessage {signed : SignedMessage} (short : signed.Short) (limit : ℕ) :
    RoundTrips (limit + 2) signed where
  fits := (writes_signedMessage short).fits
  folds := by
    obtain ⟨message, signature⟩ := signed
    -- at most one variant is written, so the other two fields are the whole message
    cases message with
    | none =>
      exact foldlM_messageField (fun nested => SignedMessage.mk none nested) (fun _ => rfl) rfl
        signature (short.signature.trips _)
    | some variant =>
      cases variant with
      | proposal proposal =>
        refine (foldlM_front (foldlM_messageField
          (fun nested => SignedMessage.mk (nested.map .proposal) none) (fun _ => rfl) rfl
          (some proposal) fun one member => ?_)).trans ?_
        · exact roundTrips_proposal (short.proposal one member) limit
        · exact foldlM_messageField (fun nested => SignedMessage.mk (some (.proposal proposal)) nested)
            (fun _ => rfl) rfl signature (short.signature.trips _)
      | vote vote =>
        refine (foldlM_front (foldlM_messageField
          (fun nested => SignedMessage.mk (nested.map .vote) none) (fun _ => rfl) rfl
          (some vote) fun one member => ?_)).trans ?_
        · exact roundTrips_vote (short.vote one member) limit
        · exact foldlM_messageField (fun nested => SignedMessage.mk (some (.vote vote)) nested)
            (fun _ => rfl) rfl signature (short.signature.trips _)

structure ProposedValue.Short (message : ProposedValue) : Prop where
  proposer : Proto.Short message.proposer
  value : Proto.Short message.value

theorem writes_proposedValue {message : ProposedValue} (short : message.Short) :
    Writes 288 (Message.fields message) := by
  have flag : message.validity.toNat < 2 ^ 64 := by
    cases message.validity <;> decide
  exact (writes_number (by decide) (by decide) _).append <|
    (writes_number (by decide) (by decide) _).append <|
      (writes_optional (by decide) (by decide) _).append <|
        (short.proposer.writes (by decide)).append <|
          (short.value.writes (by decide)).append (writes_scalarField (by decide) flag)

theorem roundTrips_proposedValue {message : ProposedValue} (short : message.Short) (limit : ℕ) :
    RoundTrips (limit + 1) message where
  fits := (writes_proposedValue short).fits
  folds := by
    obtain ⟨height, round, validRound, proposer, value, validity⟩ := message
    refine (foldlM_front (foldlM_numberField
      (fun number => ProposedValue.mk number 0 none none none false) (fun _ => rfl) rfl
      height)).trans ?_
    refine (foldlM_front (foldlM_numberField
      (fun number => ProposedValue.mk height number none none none false) (fun _ => rfl) rfl
      round)).trans ?_
    refine (foldlM_front (foldlM_optionalField
      (fun number => ProposedValue.mk height round number none none false) (fun _ => rfl) rfl
      validRound)).trans ?_
    refine (foldlM_front (foldlM_messageField
      (fun nested => ProposedValue.mk height round validRound nested none false) (fun _ => rfl) rfl
      proposer (short.proposer.trips limit))).trans ?_
    refine (foldlM_front (foldlM_messageField
      (fun nested => ProposedValue.mk height round validRound proposer nested false) (fun _ => rfl)
      rfl value (short.value.trips limit))).trans ?_
    refine (foldlM_scalarField (fun number =>
      ProposedValue.mk height round validRound proposer value (decide (number ≠ 0))) (fun _ => rfl) rfl
      validity.toNat).trans ?_
    cases validity <;> rfl

structure PolkaSignature.Short (message : PolkaSignature) : Prop where
  validatorAddress : Proto.Short message.validatorAddress
  signature : Proto.Short message.signature

theorem writes_polkaSignature {message : PolkaSignature} (short : message.Short) :
    Writes 208 (Message.fields message) :=
  (short.validatorAddress.writes (by decide)).append (short.signature.writes (by decide))

theorem roundTrips_polkaSignature {message : PolkaSignature} (short : message.Short) (limit : ℕ) :
    RoundTrips (limit + 1) message where
  fits := (writes_polkaSignature short).fits
  folds := by
    obtain ⟨address, signature⟩ := message
    refine (foldlM_front (foldlM_messageField (fun nested => PolkaSignature.mk nested none)
      (fun _ => rfl) rfl address (short.validatorAddress.trips limit))).trans ?_
    exact foldlM_messageField (fun nested => PolkaSignature.mk address nested) (fun _ => rfl) rfl
      signature (short.signature.trips limit)

structure PolkaCertificate.Short (message : PolkaCertificate) : Prop where
  valueId : Proto.Short message.valueId
  signatures : ∀ signature ∈ message.signatures, signature.Short

theorem writes_polkaCertificate {message : PolkaCertificate} (short : message.Short) :
    Writes (144 + message.signatures.length * 228) (Message.fields message) := by
  refine (Writes.append (writes_number (by decide) (by decide) _) <|
    .append (writes_number (by decide) (by decide) _) <|
      .append (short.valueId.writes (by decide)) <|
        writes_repeatedField (by decide) (by decide) fun signature member =>
          writes_polkaSignature (short.signatures signature member)).mono ?_
  omega

theorem roundTrips_polkaCertificate {message : PolkaCertificate} (short : message.Short)
    (limit : ℕ) : RoundTrips (limit + 2) message where
  fits := (writes_polkaCertificate short).fits
  folds := by
    obtain ⟨height, round, valueId, signatures⟩ := message
    refine (foldlM_front (foldlM_numberField (fun number => PolkaCertificate.mk number 0 none [])
      (fun _ => rfl) rfl height)).trans ?_
    refine (foldlM_front (foldlM_numberField
      (fun number => PolkaCertificate.mk height number none []) (fun _ => rfl) rfl round)).trans ?_
    refine (foldlM_front (foldlM_messageField
      (fun nested => PolkaCertificate.mk height round nested []) (fun _ => rfl) rfl valueId
      (short.valueId.trips _))).trans ?_
    exact foldlM_repeatedField (fun nested => PolkaCertificate.mk height round valueId nested)
      (fun _ _ => rfl) [] signatures fun signature member =>
        roundTrips_polkaSignature (short.signatures signature member) limit

end Proto

/-! ### Conversions -/

/-- The errors of the codec. -/
inductive ProtoError where
  /-- An error of the wire format. -/
  | decode
  | missingField (message field : String)
  | invalidData (message field : String)
  | other (text : String)

namespace ProtobufCodec

/-- Bytes of a fixed length, as the number they spell. -/
def fixedBytes (width : ℕ) (error : ℕ → ProtoError) (message : Proto.BytesMessage) :
    Except ProtoError ℕ :=
  if message.bytes.length = width then .ok (beValue message.bytes)
  else .error (error message.bytes.length)

variable (address : Address)

def addressToProto : Proto.Address := ⟨beBytes 20 address.val⟩

def addressFromProto (message : Proto.Address) : Except ProtoError Address :=
  (fixedBytes 20 (fun length =>
    .other ("Invalid address length: expected 20, got " ++ toString length)) message).map
      (Fin.ofNat (2 ^ 160))

variable (value : BlockHash)

def valueToProto : Proto.Value := ⟨beBytes 32 value.val⟩

def valueFromProto (message : Proto.Value) : Except ProtoError BlockHash :=
  (fixedBytes 32 (fun _ => .invalidData "Value" "value") message).map (Fin.ofNat (2 ^ 256))

def valueIdToProto : Proto.ValueId := ⟨beBytes 32 value.val⟩

def valueIdFromProto (message : Proto.ValueId) : Except ProtoError BlockHash :=
  (fixedBytes 32 (fun _ => .invalidData "ValueId" "block_hash") message).map (Fin.ofNat (2 ^ 256))

variable (signature : SignatureBytes)

def encodeSignature : Proto.Signature := ⟨signature.toList⟩

def decodeSignature (message : Proto.Signature) : Except ProtoError SignatureBytes :=
  if length : message.bytes.length = 64 then .ok ⟨message.bytes, length⟩
  else .error (.other "Invalid signature length")

def required {α : Type} (message field : String) : Option α → Except ProtoError α
  | some value => .ok value
  | none => .error (.missingField message field)

def heightToProto (height : Height) : Fin (2 ^ 64) := ⟨height.val, height.isLt⟩

def heightFromProto (height : Fin (2 ^ 64)) : Height := ⟨height.val, height.isLt⟩

def encodeVotetype : VoteType → Fin (2 ^ 32)
  | .prevote => 0
  | .precommit => 1

/-- An unknown number is read as the default, a prevote. -/
def decodeVotetype (number : Fin (2 ^ 32)) : VoteType := if number = 1 then .precommit else .prevote

/-- `Vote::to_proto`; `none` is the panic on a nil round. -/
def voteToProto (vote : Vote) : Option Proto.Vote :=
  vote.round.asU32.map fun round =>
    { voteType := encodeVotetype vote.typ
      height := heightToProto vote.height
      round := round
      value := match vote.value with
        | .nil => none
        | .val value => some (valueIdToProto value)
      validatorAddress := some (addressToProto vote.validatorAddress) }

def voteFromProto (message : Proto.Vote) : Except ProtoError Vote := do
  let value ← match message.value with
    | some value => (valueIdFromProto value).map NilOrVal.val
    | none => .ok .nil
  let address ← required "Vote" "validator_address" message.validatorAddress
  let validatorAddress ← addressFromProto address
  .ok { typ := decodeVotetype message.voteType
        height := heightFromProto message.height
        round := .some message.round
        value := value
        validatorAddress := validatorAddress
        extension := none }

/-- `Proposal::to_proto`; `none` is the panic on a nil round. -/
def proposalToProto (proposal : Proposal) : Option Proto.Proposal :=
  proposal.round.asU32.map fun round =>
    { height := heightToProto proposal.height
      round := round
      value := some (valueToProto proposal.value)
      polRound := proposal.polRound.asU32
      validatorAddress := some (addressToProto proposal.validatorAddress) }

def proposalFromProto (message : Proto.Proposal) : Except ProtoError Proposal := do
  let value ← valueFromProto (← required "Proposal" "value" message.value)
  let address ← required "Proposal" "validator_address" message.validatorAddress
  let validatorAddress ← addressFromProto address
  .ok { height := heightFromProto message.height
        round := .some message.round
        value := value
        polRound := .ofOption message.polRound
        validatorAddress := validatorAddress }

/-! ### The codec -/

/-- Reads a message of the wire format. -/
def fromBytes (M : Type) [Message M] (bytes : List Byte) : Except ProtoError M :=
  match Protobuf.decode bytes with
  | some message => .ok message
  | none => .error .decode

/-- `Codec<SignedConsensusMsg>::encode`; `none` is the panic on a nil round. -/
def encodeSignedConsensusMsg : SignedConsensusMsg → Option (List Byte)
  | .vote vote signature => (voteToProto vote).map fun message =>
    Protobuf.encode (⟨some (.vote message), some (encodeSignature signature)⟩ : Proto.SignedMessage)
  | .proposal proposal signature => (proposalToProto proposal).map fun message =>
    Protobuf.encode
      (⟨some (.proposal message), some (encodeSignature signature)⟩ : Proto.SignedMessage)

variable (bytes : List Byte)

def decodeSignedConsensusMsg : Except ProtoError SignedConsensusMsg := do
  let signed ← fromBytes Proto.SignedMessage bytes
  let signature ← decodeSignature (← required "SignedMessage" "signature" signed.signature)
  match ← required "SignedMessage" "message" signed.message with
  | .proposal message => .ok (.proposal (← proposalFromProto message) signature)
  | .vote message => .ok (.vote (← voteFromProto message) signature)

/-- `Codec<ProposedValue>::encode`; `none` is the panic on a nil round. -/
def encodeProposedValue (value : ProposedValue) : Option (List Byte) :=
  value.round.asU32.map fun round => Protobuf.encode
    ({ height := heightToProto value.height
       round := round
       validRound := value.validRound.asU32
       proposer := some (addressToProto value.proposer)
       value := some (valueToProto value.value)
       validity := value.validity.isValid } : Proto.ProposedValue)

/-- `Validity::from_bool`. -/
def validityFromBool (valid : Bool) : Validity := if valid then .valid else .invalid

theorem validityFromBool_isValid (validity : Validity) :
    validityFromBool validity.isValid = validity := by
  cases validity <;> rfl

def decodeProposedValue : Except ProtoError ProposedValue := do
  let message ← fromBytes Proto.ProposedValue bytes
  let proposer ← required "ProposedValue" "proposer" message.proposer
  let value ← required "ProposedValue" "value" message.value
  let address ← addressFromProto proposer
  let hash ← valueFromProto value
  .ok { height := heightFromProto message.height
        round := .some message.round
        validRound := .ofOption message.validRound
        proposer := address
        value := hash
        validity := validityFromBool message.validity }

/-- Upper bound on signatures per certificate. -/
def maxSignaturesPerCertificate : ℕ := 1000

def polkaSignatureToProto (signature : PolkaSignature) : Proto.PolkaSignature where
  validatorAddress := some (addressToProto signature.address)
  signature := some (encodeSignature signature.signature)

def polkaSignatureFromProto (message : Proto.PolkaSignature) : Except ProtoError PolkaSignature := do
  let address ← required "PolkaCertificate" "validator_address" message.validatorAddress
  let signature ← required "PolkaCertificate" "signature" message.signature
  let bytes ← decodeSignature signature
  .ok ⟨← addressFromProto address, bytes⟩

/-- `encode_polka_certificate`; `none` is the panic on a nil round. -/
def encodePolkaCertificate (certificate : PolkaCertificate) : Option Proto.PolkaCertificate :=
  certificate.round.asU32.map fun round =>
    { height := heightToProto certificate.height
      round := round
      valueId := some (valueIdToProto certificate.valueId)
      signatures := certificate.polkaSignatures.map polkaSignatureToProto }

def decodePolkaCertificate (message : Proto.PolkaCertificate) :
    Except ProtoError PolkaCertificate := do
  if maxSignaturesPerCertificate < message.signatures.length then
    .error (.other ("PolkaCertificate signature count " ++ toString message.signatures.length ++
      " exceeds maximum " ++ toString maxSignaturesPerCertificate))
  else
    let valueId ← valueIdFromProto (← required "PolkaCertificate" "value_id" message.valueId)
    let signatures ← message.signatures.mapM polkaSignatureFromProto
    .ok { height := heightFromProto message.height
          round := .some message.round
          valueId := valueId
          polkaSignatures := signatures }

/-- `Codec<PolkaCertificate>`: the two conversions around the wire format. -/
def encodePolkaCertificateBytes (certificate : PolkaCertificate) : Option (List Byte) :=
  (encodePolkaCertificate certificate).map Protobuf.encode

def decodePolkaCertificateBytes : Except ProtoError PolkaCertificate := do
  decodePolkaCertificate (← fromBytes Proto.PolkaCertificate bytes)

/-! ### What is encoded is decoded -/

theorem fixedBytes_beBytes {width n : ℕ} (small : n < 256 ^ width) (error : ℕ → ProtoError) :
    fixedBytes width error ⟨beBytes width n⟩ = .ok n := by
  unfold fixedBytes
  rw [if_pos (length_beBytes width n), beValue_beBytes small]

theorem addressFromProto_addressToProto :
    addressFromProto (addressToProto address) = .ok address := by
  unfold addressFromProto addressToProto
  rw [fixedBytes_beBytes (address.isLt.trans_eq (by norm_num))]
  exact congrArg Except.ok (Fin.ofNat_val_eq_self address)

theorem valueFromProto_valueToProto : valueFromProto (valueToProto value) = .ok value := by
  unfold valueFromProto valueToProto
  rw [fixedBytes_beBytes (value.isLt.trans_eq (by norm_num))]
  exact congrArg Except.ok (Fin.ofNat_val_eq_self value)

theorem valueIdFromProto_valueIdToProto : valueIdFromProto (valueIdToProto value) = .ok value := by
  unfold valueIdFromProto valueIdToProto
  rw [fixedBytes_beBytes (value.isLt.trans_eq (by norm_num))]
  exact congrArg Except.ok (Fin.ofNat_val_eq_self value)

theorem decodeSignature_encodeSignature :
    decodeSignature (encodeSignature signature) = .ok signature := by
  unfold decodeSignature encodeSignature
  rw [dif_pos signature.toList_length]
  rfl

theorem decodeVotetype_encodeVotetype (typ : VoteType) :
    decodeVotetype (encodeVotetype typ) = typ := by
  cases typ <;> rfl

theorem short_some {message : Proto.BytesMessage} (short : message.bytes.length ≤ 64) :
    Proto.Short (some message) := by
  intro one member
  rw [← Option.some.inj member]
  exact short

theorem short_address : Proto.Short (some (addressToProto address)) :=
  short_some ((length_beBytes 20 address.val).trans_le (by decide))

theorem short_value : Proto.Short (some (valueToProto value)) :=
  short_some ((length_beBytes 32 value.val).trans_le (by decide))

theorem short_signature : Proto.Short (some (encodeSignature signature)) :=
  short_some signature.toList_length.le

/-- A round that is written is a defined one. -/
theorem written_round {M : Type} {round : Round} {write : Fin (2 ^ 32) → M} {message : M}
    (converted : round.asU32.map write = some message) :
    ∃ number, Round.some number = round ∧ write number = message := by
  obtain ⟨number, defined, wrote⟩ := Option.map_eq_some_iff.mp converted
  refine ⟨number, ?_, wrote⟩
  rw [← Round.ofOption_asU32 round, defined]
  rfl

theorem map_within {A B : Type} {values : List A} {limit : ℕ} (bounded : values.length ≤ limit)
    (f : A → B) : ¬ limit < (values.map f).length := by
  rw [List.length_map]
  exact not_lt.mpr bounded

theorem voteFromProto_voteToProto {vote : Vote} {message : Proto.Vote}
    (plain : vote.extension = none) (converted : voteToProto vote = some message) :
    voteFromProto message = .ok vote ∧ message.Short := by
  obtain ⟨typ, height, round, value, address, extension⟩ := vote
  obtain ⟨number, same, rfl⟩ := written_round converted
  obtain rfl : extension = none := plain
  cases value with
  | nil =>
    refine ⟨?_, fun one member => (by cases member), short_address address⟩
    simp only [voteFromProto, required, addressFromProto_addressToProto, bind, Except.bind, same,
      decodeVotetype_encodeVotetype]
    rfl
  | val value =>
    refine ⟨?_, short_value value, short_address address⟩
    simp only [voteFromProto, required, valueIdFromProto_valueIdToProto,
      addressFromProto_addressToProto, bind, Except.bind, Except.map, same,
      decodeVotetype_encodeVotetype]
    rfl

theorem proposalFromProto_proposalToProto {proposal : Proposal} {message : Proto.Proposal}
    (converted : proposalToProto proposal = some message) :
    proposalFromProto message = .ok proposal ∧ message.Short := by
  obtain ⟨height, round, value, polRound, address⟩ := proposal
  obtain ⟨number, same, rfl⟩ := written_round converted
  refine ⟨?_, short_value value, short_address address⟩
  simp only [proposalFromProto, required, valueFromProto_valueToProto,
    addressFromProto_addressToProto, bind, Except.bind, same, Round.ofOption_asU32]
  rfl

theorem fromBytes_encode {M : Type} [Message M] {message : M}
    (trips : RoundTrips recursionLimit message) :
    fromBytes M (Protobuf.encode message) = .ok message := by
  unfold fromBytes Protobuf.decode
  rw [trips.merge_encode]

theorem decode_encode_signedConsensusMsg {msg : SignedConsensusMsg} {bytes : List Byte}
    (plain : msg.extension = none) (encoded : encodeSignedConsensusMsg msg = some bytes) :
    decodeSignedConsensusMsg bytes = .ok msg := by
  cases msg with
  | vote vote signature =>
    obtain ⟨message, converted, rfl⟩ := Option.map_eq_some_iff.mp encoded
    obtain ⟨back, short⟩ := voteFromProto_voteToProto plain converted
    have trips : RoundTrips recursionLimit
        (⟨some (.vote message), some (encodeSignature signature)⟩ : Proto.SignedMessage) := by
      refine Proto.roundTrips_signedMessage ⟨fun _ member => ?_, fun one member => ?_, ?_⟩ 98
      · cases member
      · rw [← Option.some.inj member]
        exact short
      · exact short_signature signature
    simp only [decodeSignedConsensusMsg, fromBytes_encode trips, required,
      decodeSignature_encodeSignature, back, bind, Except.bind]
  | proposal proposal signature =>
    obtain ⟨message, converted, rfl⟩ := Option.map_eq_some_iff.mp encoded
    obtain ⟨back, short⟩ := proposalFromProto_proposalToProto converted
    have trips : RoundTrips recursionLimit
        (⟨some (.proposal message), some (encodeSignature signature)⟩ : Proto.SignedMessage) := by
      refine Proto.roundTrips_signedMessage ⟨fun one member => ?_, fun _ member => ?_, ?_⟩ 98
      · rw [← Option.some.inj member]
        exact short
      · cases member
      · exact short_signature signature
    simp only [decodeSignedConsensusMsg, fromBytes_encode trips, required,
      decodeSignature_encodeSignature, back, bind, Except.bind]

theorem decode_encode_proposedValue {value : ProposedValue} {bytes : List Byte}
    (encoded : encodeProposedValue value = some bytes) : decodeProposedValue bytes = .ok value := by
  obtain ⟨height, round, proposer, validRound, hash, validity⟩ := value
  obtain ⟨number, same, rfl⟩ := written_round encoded
  have trips : RoundTrips recursionLimit
      (⟨heightToProto height, number, validRound.asU32, some (addressToProto proposer),
        some (valueToProto hash), validity.isValid⟩ : Proto.ProposedValue) :=
    Proto.roundTrips_proposedValue ⟨short_address proposer, short_value hash⟩ 99
  simp only [decodeProposedValue, fromBytes_encode trips, required, valueFromProto_valueToProto,
    addressFromProto_addressToProto, bind, Except.bind, same, Round.ofOption_asU32,
    validityFromBool_isValid]
  rfl

theorem polkaSignatureFromProto_polkaSignatureToProto (signature : PolkaSignature) :
    polkaSignatureFromProto (polkaSignatureToProto signature) = .ok signature := by
  simp only [polkaSignatureFromProto, polkaSignatureToProto, required,
    decodeSignature_encodeSignature, addressFromProto_addressToProto, bind, Except.bind]

theorem mapM_polkaSignatureFromProto (signatures : List PolkaSignature) :
    (signatures.map polkaSignatureToProto).mapM polkaSignatureFromProto = .ok signatures :=
  mapM_map fun signature _ => polkaSignatureFromProto_polkaSignatureToProto signature

theorem inverts_polkaCertificate :
    Inverts encodePolkaCertificate decodePolkaCertificate fun certificate =>
      certificate.polkaSignatures.length ≤ maxSignaturesPerCertificate := by
  intro certificate message bounded converted
  obtain ⟨height, round, valueId, signatures⟩ := certificate
  obtain ⟨number, same, rfl⟩ := written_round converted
  have within := map_within bounded polkaSignatureToProto
  simp only [decodePolkaCertificate, if_neg within, required, valueIdFromProto_valueIdToProto,
    mapM_polkaSignatureFromProto, bind, Except.bind, same]
  rfl

theorem decode_encode_polkaCertificate {certificate : PolkaCertificate} {bytes : List Byte}
    (bounded : certificate.polkaSignatures.length ≤ maxSignaturesPerCertificate)
    (encoded : encodePolkaCertificateBytes certificate = some bytes) :
    decodePolkaCertificateBytes bytes = .ok certificate := by
  obtain ⟨message, converted, rfl⟩ := Option.map_eq_some_iff.mp encoded
  have trips : RoundTrips recursionLimit message := by
    obtain ⟨number, -, rfl⟩ := Option.map_eq_some_iff.mp converted
    refine Proto.roundTrips_polkaCertificate
      ⟨short_value certificate.valueId, fun signature member => ?_⟩ 98
    obtain ⟨one, -, rfl⟩ := List.mem_map.mp member
    exact ⟨short_address one.address, short_signature one.signature⟩
  unfold decodePolkaCertificateBytes
  rw [fromBytes_encode trips]
  exact inverts_polkaCertificate certificate message bounded converted

end ProtobufCodec

end ArcNode.Codec
