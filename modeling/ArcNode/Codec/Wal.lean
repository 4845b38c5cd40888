/-
**The write-ahead log reads both of its formats.**

Records of the log were once plain protobuf messages and now start with a version byte. The decoder
tries the plain format on every record first, so a versioned record must never parse as a plain
message. It does not: the version byte 1 is a key with field number 0, which no message admits
(`fromBytes_versioned`). A plain record is read by the first attempt and a versioned one by the
second (**`decode_versioned`**, `decode_legacy`), for all three kinds of records
(**`wal_reads_both_formats`**).
-/

import ArcNode.Codec.Proto

namespace ArcNode.Codec

open ArcNode.Lib ArcNode.Lib.Protobuf ArcNode.Types

/-! ### The versioned codec -/

/-- A codec; `none` is a panic of the encoder. -/
structure MessageCodec (ε M : Type) where
  encode : M → Option (List Byte)
  decode : List Byte → Except ε M

inductive CodecError where
  | emptyBytes
  | unsupportedVersion (byte : Byte)
  | protobuf (error : ProtoError)

inductive Version where
  | v1
  deriving DecidableEq

def Version.toByte : Version → Byte
  | v1 => 1

def Version.tryFrom (byte : Byte) : Option Version := if byte = 1 then some .v1 else none

section Versioned

variable {M : Type} (codec : MessageCodec ProtoError M)

/-- `impl_versioned_codec_with_legacy_fallback`. -/
def versionedWithLegacyFallback (current : Version) : MessageCodec CodecError M where
  encode message := (codec.encode message).map (current.toByte :: ·)
  decode
    | [] => .error .emptyBytes
    | versionByte :: rest => match codec.decode (versionByte :: rest) with
      | .ok message => .ok message
      | .error _ => match Version.tryFrom versionByte with
        | none => .error (.unsupportedVersion versionByte)
        | some version =>
          if version ≠ current then .error (.unsupportedVersion versionByte)
          else (codec.decode rest).mapError .protobuf

/-- No plain message is empty or starts with the version byte. -/
structure Refuses : Prop where
  empty : ∃ error, codec.decode [] = .error error
  versioned : ∀ rest, ∃ error, codec.decode (1 :: rest) = .error error

variable {codec} {message : M} {bytes : List Byte}

theorem decode_versioned (refuses : Refuses codec) (back : codec.decode bytes = .ok message) :
    (versionedWithLegacyFallback codec .v1).decode (1 :: bytes) = .ok message := by
  obtain ⟨error, failed⟩ := refuses.versioned bytes
  unfold versionedWithLegacyFallback
  dsimp only
  rw [failed]
  show (codec.decode bytes).mapError CodecError.protobuf = _
  rw [back]
  rfl

theorem decode_legacy (refuses : Refuses codec) (back : codec.decode bytes = .ok message) :
    (versionedWithLegacyFallback codec .v1).decode bytes = .ok message := by
  cases bytes with
  | nil =>
    obtain ⟨error, failed⟩ := refuses.empty
    rw [failed] at back
    cases back
  | cons byte rest =>
    unfold versionedWithLegacyFallback
    dsimp only
    rw [back]

end Versioned

/-! ### The codecs of the log -/

namespace ProtobufCodec

def signedConsensusMsg : MessageCodec ProtoError SignedConsensusMsg :=
  ⟨encodeSignedConsensusMsg, decodeSignedConsensusMsg⟩

def proposedValue : MessageCodec ProtoError ProposedValue := ⟨encodeProposedValue, decodeProposedValue⟩

def polkaCertificate : MessageCodec ProtoError PolkaCertificate :=
  ⟨encodePolkaCertificateBytes, decodePolkaCertificateBytes⟩

theorem fromBytes_versioned (M : Type) [Message M] (rest : List Byte) :
    fromBytes M (1 :: rest) = .error .decode := by
  unfold fromBytes Protobuf.decode merge
  rw [parse_cons_of_lt _ (by decide), Option.bind_none]

theorem refuses_signedConsensusMsg : Refuses signedConsensusMsg where
  empty := ⟨_, rfl⟩
  versioned rest := by
    refine ⟨.decode, ?_⟩
    show decodeSignedConsensusMsg (1 :: rest) = _
    unfold decodeSignedConsensusMsg
    rw [fromBytes_versioned]
    rfl

theorem refuses_proposedValue : Refuses proposedValue where
  empty := ⟨_, rfl⟩
  versioned rest := by
    refine ⟨.decode, ?_⟩
    show decodeProposedValue (1 :: rest) = _
    unfold decodeProposedValue
    rw [fromBytes_versioned]
    rfl

theorem refuses_polkaCertificate : Refuses polkaCertificate where
  empty := ⟨_, rfl⟩
  versioned rest := by
    refine ⟨.decode, ?_⟩
    show decodePolkaCertificateBytes (1 :: rest) = _
    unfold decodePolkaCertificateBytes
    rw [fromBytes_versioned]
    rfl

end ProtobufCodec

namespace WalCodec

def signedConsensusMsg : MessageCodec CodecError SignedConsensusMsg :=
  versionedWithLegacyFallback ProtobufCodec.signedConsensusMsg .v1

def proposedValue : MessageCodec CodecError ProposedValue :=
  versionedWithLegacyFallback ProtobufCodec.proposedValue .v1

def polkaCertificate : MessageCodec CodecError PolkaCertificate :=
  versionedWithLegacyFallback ProtobufCodec.polkaCertificate .v1

end WalCodec

/-! ### Both formats -/

section Formats

variable {ε M : Type}

/-- What one codec writes of a message, another one reads as this message; nothing is written, by a
panic, exactly when its round is nil. -/
structure ReadBy (writer : MessageCodec ε M) (reader : MessageCodec CodecError M) (message : M)
    (round : Round) : Prop where
  panics : writer.encode message = none ↔ round = .nil
  read : ∀ bytes ∈ writer.encode message, reader.decode bytes = .ok message

/-- The codec of the log reads a record with a version byte, and a plain one. -/
structure ReadsBothFormats (wal : MessageCodec CodecError M) (plain : MessageCodec ProtoError M)
    (message : M) (round : Round) : Prop where
  versioned : ReadBy wal wal message round
  legacy : ReadBy plain wal message round

theorem readsBothFormats {codec : MessageCodec ProtoError M} (refuses : Refuses codec) {message : M}
    {round : Round} (panics : codec.encode message = none ↔ round = .nil)
    (back : ∀ bytes ∈ codec.encode message, codec.decode bytes = .ok message) :
    ReadsBothFormats (versionedWithLegacyFallback codec .v1) codec message round where
  versioned := by
    refine ⟨Option.map_eq_none_iff.trans panics, fun bytes written => ?_⟩
    obtain ⟨plain, encoded, rfl⟩ := Option.map_eq_some_iff.mp written
    exact decode_versioned refuses (back plain encoded)
  legacy := ⟨panics, fun bytes written => decode_legacy refuses (back bytes written)⟩

theorem encodeSignedConsensusMsg_eq_none {msg : SignedConsensusMsg} :
    ProtobufCodec.encodeSignedConsensusMsg msg = none ↔ msg.round = .nil := by
  cases msg with
  | vote vote signature | proposal proposal signature =>
    exact Option.map_eq_none_iff.trans (Option.map_eq_none_iff.trans Round.asU32_eq_none)

/-- **The log reads both formats of every record**: votes without an extension and proposals,
proposed values, and polka certificates within the bound on signatures. -/
theorem wal_reads_both_formats : (∀ msg : SignedConsensusMsg, msg.extension = none →
        ReadsBothFormats WalCodec.signedConsensusMsg ProtobufCodec.signedConsensusMsg msg
          msg.round) ∧
      (∀ value : ProposedValue,
        ReadsBothFormats WalCodec.proposedValue ProtobufCodec.proposedValue value value.round) ∧
      ∀ certificate : PolkaCertificate, certificate.polkaSignatures.length ≤ 1000 →
        ReadsBothFormats WalCodec.polkaCertificate ProtobufCodec.polkaCertificate certificate
          certificate.round := by
  refine ⟨fun msg plain => ?_, fun value => ?_, fun certificate bounded => ?_⟩
  · exact readsBothFormats ProtobufCodec.refuses_signedConsensusMsg encodeSignedConsensusMsg_eq_none
      fun _ written => ProtobufCodec.decode_encode_signedConsensusMsg plain written
  · exact readsBothFormats ProtobufCodec.refuses_proposedValue
      (Option.map_eq_none_iff.trans Round.asU32_eq_none)
      fun _ written => ProtobufCodec.decode_encode_proposedValue written
  · exact readsBothFormats ProtobufCodec.refuses_polkaCertificate
      (Option.map_eq_none_iff.trans (Option.map_eq_none_iff.trans Round.asU32_eq_none))
      fun _ written => ProtobufCodec.decode_encode_polkaCertificate bounded written

/-- A prevote for nil, and a certificate with one signature. -/
def nilPrevote : Vote := ⟨.prevote, 1, .some 0, .nil, 3, none⟩

def zeroSignature : SignatureBytes := List.Vector.replicate 64 0

def singlePolka : PolkaCertificate := ⟨7, .some 3, 12, [⟨6, zeroSignature⟩]⟩

theorem wal_reads_both_formats_nilPrevote :
    ReadsBothFormats WalCodec.signedConsensusMsg ProtobufCodec.signedConsensusMsg
        (.vote nilPrevote zeroSignature) (.some 0) ∧
      ReadsBothFormats WalCodec.polkaCertificate ProtobufCodec.polkaCertificate singlePolka
        (.some 3) :=
  ⟨wal_reads_both_formats.1 (.vote nilPrevote zeroSignature) rfl,
    wal_reads_both_formats.2.2 singlePolka (by decide)⟩

end Formats

end ArcNode.Codec
