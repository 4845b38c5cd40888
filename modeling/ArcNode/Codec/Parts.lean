/-
**The codec of proposal parts and of their streams.**

A proposal part is a message of its own, which a stream message carries as bytes; the store keeps
all parts of a proposal in one message. `round` is a plain number on the wire, so a decoded `Init`
always has a round (**`decodeStreamMessage_wellFormed`**), and the encoder panics (`none`) on a nil
one; `pol_round` is optional and may be nil. prost's encoding of the messages is a `WireFormat`.
-/

import ArcNode.Lib.Program
import ArcNode.Codec.Proto
import ArcNode.App.Streaming

namespace ArcNode.Codec

open ArcNode.Lib ArcNode.Lib.Protobuf ArcNode.Types ArcNode.App

/-! ### Messages on the wire -/

namespace Proto

deriving instance Encodable for BytesMessage

structure ProposalInit where
  height : Fin (2 ^ 64)
  round : Fin (2 ^ 32)
  proposer : Option Address
  polRound : Option (Fin (2 ^ 32))
  deriving DecidableEq, Encodable

instance : Message ProposalInit where
  default := ⟨0, 0, none, none⟩
  fields message :=
    scalarField 1 message.height.val ++ (scalarField 2 message.round.val ++
      (messageField 4 message.proposer ++ optionalField 5 (message.polRound.map Fin.val)))
  mergeField limit message field := match field.number with
    | 1 => (mergeVarint field.wire).map fun value => { message with height := Fin.ofNat _ value }
    | 2 => (mergeVarint field.wire).map fun value => { message with round := Fin.ofNat _ value }
    | 4 => (mergeMessage limit message.proposer field.wire).map fun address =>
      { message with proposer := some address }
    | 5 => (mergeVarint field.wire).map fun value =>
      { message with polRound := some (Fin.ofNat _ value) }
    | _ => skipField limit message

abbrev ProposalData := BytesMessage

structure ProposalFin where
  signature : Option Signature
  deriving DecidableEq, Encodable

instance : Message ProposalFin where
  default := ⟨none⟩
  fields message := messageField 1 message.signature
  mergeField limit message field := match field.number with
    | 1 => (mergeMessage limit message.signature field.wire).map fun signature => ⟨some signature⟩
    | _ => skipField limit message

inductive ProposalPart.Part where
  | init (init : ProposalInit)
  | data (data : ProposalData)
  | fin (fin : ProposalFin)
  deriving DecidableEq, Encodable

structure ProposalPart where
  part : Option ProposalPart.Part
  deriving DecidableEq, Encodable

/-- The field of a variant is merged into the same variant and replaces another one. -/
instance : Message ProposalPart where
  default := ⟨none⟩
  fields message := match message.part with
    | none => []
    | some (.init init) => messageField 1 (some init)
    | some (.data data) => messageField 2 (some data)
    | some (.fin fin) => messageField 3 (some fin)
  mergeField limit message field := match field.number, message.part with
    | 1, some (.init init) => (mergeMessage limit (some init) field.wire).map (⟨some <| .init ·⟩)
    | 1, _ => (mergeMessage limit none field.wire).map (⟨some <| .init ·⟩)
    | 2, some (.data data) => (mergeMessage limit (some data) field.wire).map (⟨some <| .data ·⟩)
    | 2, _ => (mergeMessage limit none field.wire).map (⟨some <| .data ·⟩)
    | 3, some (.fin fin) => (mergeMessage limit (some fin) field.wire).map (⟨some <| .fin ·⟩)
    | 3, _ => (mergeMessage limit none field.wire).map (⟨some <| .fin ·⟩)
    | _, _ => skipField limit message

/-- All parts of a proposal, as the store keeps them. -/
structure ProposalParts where
  init : Option ProposalInit
  data : List ProposalData
  fin : Option ProposalFin

inductive StreamMessage.Content where
  | data (bytes : List Byte)
  | fin (set : Bool)
  deriving DecidableEq, Encodable

structure StreamMessage where
  streamId : List Byte
  sequence : Fin (2 ^ 64)
  content : Option StreamMessage.Content
  deriving DecidableEq, Encodable

instance : Message StreamMessage where
  default := ⟨[], 0, none⟩
  fields message := bytesField 1 message.streamId ++ (scalarField 2 message.sequence.val ++
    match message.content with
    | none => []
    | some (.data bytes) => [⟨3, .lengthDelimited bytes⟩]
    | some (.fin set) => [⟨4, .varint set.toNat⟩])
  mergeField limit message field := match field.number with
    | 1 => (mergeBytes field.wire).map fun bytes => { message with streamId := bytes }
    | 2 => (mergeVarint field.wire).map fun value => { message with sequence := Fin.ofNat _ value }
    | 3 => (mergeBytes field.wire).map fun bytes => { message with content := some (.data bytes) }
    | 4 => (mergeVarint field.wire).map fun value => { message with content := some (.fin (value ≠ 0)) }
    | _ => skipField limit message

end Proto

namespace ProtobufCodec

/-! ### Conversions -/

/-- `ProposalInit::to_proto`; `none` is the panic on a nil round. -/
def proposalInitToProto (init : ProposalInit) : Option Proto.ProposalInit :=
  init.round.asU32.map fun round =>
    { height := heightToProto init.height
      round := round
      proposer := some (addressToProto init.proposer)
      polRound := init.polRound.asU32 }

def proposalInitFromProto (message : Proto.ProposalInit) : Except ProtoError ProposalInit := do
  let proposer ← required "ProposalInit" "proposer" message.proposer
  let address ← addressFromProto proposer
  .ok { height := heightFromProto message.height
        round := .some message.round
        polRound := .ofOption message.polRound
        proposer := address }

def proposalDataToProto (bytes : List Byte) : Proto.ProposalData := ⟨bytes⟩

def proposalDataFromProto (message : Proto.ProposalData) : Except ProtoError (List Byte) :=
  .ok message.bytes

def proposalFinToProto (signature : Signature) : Proto.ProposalFin := ⟨some ⟨signature⟩⟩

def proposalFinFromProto (message : Proto.ProposalFin) : Except ProtoError Signature := do
  let signature ← required "ProposalFin" "signature" message.signature
  let bytes ← decodeSignature signature
  .ok bytes.toList

/-- `ProposalPart::to_proto`; `none` is the panic on a nil round. -/
def proposalPartToProto : ProposalPart → Option Proto.ProposalPart
  | .init init => (proposalInitToProto init).map fun message => ⟨some (.init message)⟩
  | .data bytes => some ⟨some (.data (proposalDataToProto bytes))⟩
  | .fin signature => some ⟨some (.fin (proposalFinToProto signature))⟩

def proposalPartFromProto (message : Proto.ProposalPart) : Except ProtoError ProposalPart := do
  match ← required "ProposalPart" "part" message.part with
  | .init init => .ok (.init (← proposalInitFromProto init))
  | .data data => .ok (.data (← proposalDataFromProto data))
  | .fin fin => .ok (.fin (← proposalFinFromProto fin))

/-- `ProposalParts::to_proto`; `none` is the panic on a nil round. -/
def proposalPartsToProto (parts : ProposalParts) : Option Proto.ProposalParts :=
  (proposalInitToProto parts.init).map fun init =>
    { init := some init
      data := parts.data.map proposalDataToProto
      fin := some (proposalFinToProto parts.signature) }

def proposalPartsFromProto (message : Proto.ProposalParts) : Except ProtoError ProposalParts := do
  let init ← proposalInitFromProto (← required "ProposalParts" "init" message.init)
  let data ← message.data.mapM proposalDataFromProto
  let signature ← proposalFinFromProto (← required "ProposalParts" "fin" message.fin)
  .ok ⟨init, data, signature⟩

section Stream

variable (stream : WireFormat Proto.StreamMessage) (part : WireFormat Proto.ProposalPart)

/-- The content of a stream message: a part is encoded on its own first. -/
def streamContentToProto : StreamContent → Option Proto.StreamMessage.Content
  | .data data => (encodeVia part proposalPartToProto data).map .data
  | .fin => some (.fin true)

def streamContentFromProto : Proto.StreamMessage.Content → Except ProtoError StreamContent
  | .data bytes => (decodeVia part .decode proposalPartFromProto bytes).map .data
  | .fin _ => .ok .fin

def streamMessageToProto (message : StreamMessage) : Option Proto.StreamMessage :=
  (streamContentToProto part message.content).map fun content =>
    { streamId := message.streamId
      sequence := Fin.ofNat (2 ^ 64) message.sequence
      content := some content }

def streamMessageFromProto (message : Proto.StreamMessage) : Except ProtoError StreamMessage := do
  let proto ← required "StreamMessage" "content" message.content
  let content ← streamContentFromProto part proto
  .ok { streamId := message.streamId
        sequence := message.sequence.val
        content := content }

/-- `Codec<StreamMessage<ProposalPart>>::encode`; `none` is the panic on a nil round. -/
def encodeStreamMessage : StreamMessage → Option (List Byte) :=
  encodeVia stream (streamMessageToProto part)

/-- `Codec<StreamMessage<ProposalPart>>::decode`. -/
def decodeStreamMessage : List Byte → Except ProtoError StreamMessage :=
  decodeVia stream .decode (streamMessageFromProto part)

end Stream

/-! ### What the decoder guarantees -/

/-- **A message of the types**: an `Init` has a round, sequence numbers have 64 bits. -/
structure WellFormed (message : StreamMessage) : Prop where
  defined : ∀ init, message.content = .data (.init init) → init.round ≠ .nil
  sequence : message.sequence < 2 ^ 64

theorem round_proposalInitFromProto {message : Proto.ProposalInit} {init : ProposalInit}
    (read : proposalInitFromProto message = .ok init) : init.round = .some message.round := by
  obtain ⟨proposer, -, rest⟩ := bind_eq_ok.mp read
  obtain ⟨address, -, same⟩ := bind_eq_ok.mp rest
  rw [← Except.ok.inj same]

theorem defined_proposalPartFromProto {message : Proto.ProposalPart} {init : ProposalInit}
    (read : proposalPartFromProto message = .ok (.init init)) : init.round ≠ .nil := by
  obtain ⟨part, -, rest⟩ := bind_eq_ok.mp read
  cases part with
  | init proto =>
    obtain ⟨found, converted, same⟩ := bind_eq_ok.mp rest
    obtain rfl : found = init := ProposalPart.init.inj (Except.ok.inj same)
    rw [round_proposalInitFromProto converted]
    exact fun nil => Round.noConfusion nil
  | data proto | fin proto =>
    obtain ⟨found, -, same⟩ := bind_eq_ok.mp rest
    cases same

theorem decodeStreamMessage_wellFormed {stream : WireFormat Proto.StreamMessage}
    {part : WireFormat Proto.ProposalPart} {bytes : List Byte} {message : StreamMessage}
    (decoded : decodeStreamMessage stream part bytes = .ok message) : WellFormed message := by
  obtain ⟨proto, -, converted⟩ := bind_eq_ok.mp decoded
  obtain ⟨content, -, rest⟩ := bind_eq_ok.mp converted
  obtain ⟨found, read, same⟩ := bind_eq_ok.mp rest
  obtain rfl := Except.ok.inj same
  refine ⟨?_, proto.sequence.isLt⟩
  intro init carried
  obtain rfl : found = .data (.init init) := carried
  cases content with
  | data inner =>
    obtain ⟨data, decodedPart, same⟩ := map_eq_ok.mp read
    obtain rfl : data = .init init := StreamContent.data.inj same
    obtain ⟨message, -, convertedPart⟩ := bind_eq_ok.mp decodedPart
    exact defined_proposalPartFromProto convertedPart
  | fin set => cases read

/-! ### What is encoded is decoded -/

theorem inverts_proposalInit : Inverts proposalInitToProto proposalInitFromProto fun _ => True := by
  intro init message _ converted
  obtain ⟨height, round, polRound, proposer⟩ := init
  obtain ⟨number, same, rfl⟩ := written_round converted
  simp only [proposalInitFromProto, required, addressFromProto_addressToProto, bind, Except.bind, same,
    Round.ofOption_asU32]
  rfl

/-- Signatures have 64 bytes, as their type says. -/
def ProposalPart.Sized : ProposalPart → Prop
  | .fin signature => signature.length = 64
  | _ => True

theorem proposalFinFromProto_proposalFinToProto {signature : Signature}
    (sized : signature.length = 64) :
    proposalFinFromProto (proposalFinToProto signature) = .ok signature := by
  unfold proposalFinFromProto proposalFinToProto decodeSignature
  simp only [required, bind, Except.bind, dif_pos sized]
  rfl

theorem inverts_proposalPart :
    Inverts proposalPartToProto proposalPartFromProto ProposalPart.Sized := by
  intro part message sized converted
  cases part with
  | init init =>
    obtain ⟨inner, wrote, rfl⟩ := Option.map_eq_some_iff.mp converted
    have back := inverts_proposalInit init inner trivial wrote
    simp only [proposalPartFromProto, required, back, bind, Except.bind]
  | data bytes =>
    obtain rfl := Option.some.inj converted
    rfl
  | fin signature =>
    obtain rfl := Option.some.inj converted
    have back := proposalFinFromProto_proposalFinToProto sized
    simp only [proposalPartFromProto, required, back, bind, Except.bind]

theorem mapM_proposalDataFromProto (data : List (List Byte)) :
    (data.map proposalDataToProto).mapM proposalDataFromProto = .ok data :=
  mapM_map fun _ _ => rfl

theorem inverts_proposalParts : Inverts proposalPartsToProto proposalPartsFromProto
      fun parts => parts.signature.length = 64 := by
  intro parts message sized converted
  obtain ⟨inner, wrote, rfl⟩ := Option.map_eq_some_iff.mp converted
  have init := inverts_proposalInit parts.init inner trivial wrote
  have fin := proposalFinFromProto_proposalFinToProto sized
  simp only [proposalPartsFromProto, required, init, fin, mapM_proposalDataFromProto, bind, Except.bind]

/-- A stream message as its types have it: a signature of 64 bytes, a sequence number of 64 bits. -/
structure Sized (message : StreamMessage) : Prop where
  part : ∀ data, message.content = .data data → ProposalPart.Sized data
  sequence : message.sequence < 2 ^ 64

variable {stream : WireFormat Proto.StreamMessage} {part : WireFormat Proto.ProposalPart}

theorem inverts_streamMessage :
    Inverts (encodeStreamMessage stream part) (decodeStreamMessage stream part) Sized := by
  refine inverts_via ?_
  intro message proto sized converted
  obtain ⟨streamId, sequence, content⟩ := message
  obtain ⟨inner, wrote, rfl⟩ := Option.map_eq_some_iff.mp converted
  have number : (Fin.ofNat (2 ^ 64) sequence).val = sequence := Nat.mod_eq_of_lt sized.sequence
  have back : streamContentFromProto part inner = .ok content := by
    cases content with
    | data data =>
      obtain ⟨bytes, encoded, rfl⟩ := Option.map_eq_some_iff.mp wrote
      have decoded : decodeVia part .decode proposalPartFromProto bytes = .ok data :=
        inverts_via inverts_proposalPart data bytes (sized.part data rfl) encoded
      show (decodeVia part .decode proposalPartFromProto bytes).map StreamContent.data = _
      rw [decoded]
      rfl
    | fin =>
      obtain rfl := Option.some.inj wrote
      rfl
  simp only [streamMessageFromProto, required, back, number, bind, Except.bind]

end ProtobufCodec

end ArcNode.Codec
