/-
**Votes, proposals and certificates.**

The messages of consensus that are signed, stored in the write-ahead log and sent to peers. A vote
is for a value or for nil and may carry an extension; a proposal carries the round of its proof of
lock, which may be nil; a polka certificate collects the signatures of prevotes for one value, a
round certificate those of any votes of a round. Peers that synchronize ask for decided values and
send them with extended commit certificates; what a validator did against the rules is kept as
evidence.
-/

import ArcNode.Types.Block

namespace ArcNode.Types

open ArcNode.Lib

abbrev SignatureBytes := List.Vector Byte 64

inductive VoteType where
  | prevote
  | precommit
  deriving DecidableEq

inductive NilOrVal (α : Type) where
  | nil
  | val (value : α)
  deriving DecidableEq

/-- An extension with its signature. -/
structure SignedExtension where
  message : List Byte
  signature : SignatureBytes
  deriving DecidableEq

structure Vote where
  typ : VoteType
  height : Height
  round : Round
  value : NilOrVal BlockHash
  validatorAddress : Address
  extension : Option SignedExtension
  deriving DecidableEq

structure Proposal where
  height : Height
  round : Round
  value : BlockHash
  polRound : Round
  validatorAddress : Address
  deriving DecidableEq

inductive SignedConsensusMsg where
  | vote (message : Vote) (signature : SignatureBytes)
  | proposal (message : Proposal) (signature : SignatureBytes)
  deriving DecidableEq

namespace SignedConsensusMsg

def round : SignedConsensusMsg → Round
  | vote message _ => message.round
  | proposal message _ => message.round

def extension : SignedConsensusMsg → Option SignedExtension
  | vote message _ => message.extension
  | proposal _ _ => none

end SignedConsensusMsg

structure PolkaSignature where
  address : Address
  signature : SignatureBytes
  deriving DecidableEq

/-- The prevotes of a quorum for one value. -/
structure PolkaCertificate where
  height : Height
  round : Round
  valueId : BlockHash
  polkaSignatures : List PolkaSignature
  deriving DecidableEq

/-! ### Liveness -/

/-- A vote in a round certificate. -/
structure RoundSignature where
  voteType : VoteType
  valueId : NilOrVal BlockHash
  address : Address
  signature : SignatureBytes
  deriving DecidableEq

inductive RoundCertificateType where
  | precommit
  | skip
  deriving DecidableEq

/-- The votes that end a round or let a validator skip to it. -/
structure RoundCertificate where
  height : Height
  round : Round
  certType : RoundCertificateType
  roundSignatures : List RoundSignature
  deriving DecidableEq

/-- What a validator repeats to keep consensus going. -/
inductive LivenessMsg where
  | vote (message : Vote) (signature : SignatureBytes)
  | polkaCertificate (certificate : PolkaCertificate)
  | skipRoundCertificate (certificate : RoundCertificate)
  deriving DecidableEq

/-! ### Sync -/

structure Status (PeerId : Type) where
  peerId : PeerId
  tipHeight : Height
  historyMinHeight : Height

/-- A request for the decided values from a height to another one. -/
structure ValueRequest where
  rangeStart : Height
  rangeEnd : Height
  deriving DecidableEq

structure ExtendedCommitSignature where
  address : Address
  signature : SignatureBytes
  extension : Option SignedExtension
  deriving DecidableEq

structure ExtendedCommitCertificate where
  height : Height
  round : Round
  valueId : BlockHash
  commitSignatures : List ExtendedCommitSignature
  deriving DecidableEq

/-- A decided value as it is sent. -/
structure RawDecidedValue where
  valueBytes : List Byte
  certificate : ExtendedCommitCertificate
  deriving DecidableEq

structure ValueResponse where
  startHeight : Height
  values : List RawDecidedValue
  deriving DecidableEq

/-! ### Evidence -/

/-- Two votes of one validator that exclude each other. -/
structure DoubleVote where
  first : Vote × SignatureBytes
  second : Vote × SignatureBytes
  deriving DecidableEq

structure DoubleProposal where
  first : Proposal × SignatureBytes
  second : Proposal × SignatureBytes
  deriving DecidableEq

structure ValidatorEvidence where
  address : Address
  doubleVotes : List DoubleVote
  doubleProposals : List DoubleProposal
  deriving DecidableEq

structure StoredMisbehaviorEvidence where
  height : Height
  validators : List ValidatorEvidence
  deriving DecidableEq

/-! ### The proposal monitor -/

inductive ProposalSuccessState where
  | unknown
  | unsuccessful
  | successful
  deriving DecidableEq

/-- What is recorded about the first proposal of a height; times are milliseconds after the
epoch. -/
structure ProposalMonitor where
  height : Height
  proposer : Address
  startTime : ℕ
  proposalReceiveTime : Option ℕ
  valueId : Option BlockHash
  successful : ProposalSuccessState
  synced : Bool
  deriving DecidableEq

/-! ### Rounds as numbers -/

def Round.asU32 : Round → Option (Fin (2 ^ 32))
  | nil => none
  | some number => Option.some number

/-- `From<Option<u32>> for Round`. -/
def Round.ofOption : Option (Fin (2 ^ 32)) → Round
  | Option.none => nil
  | Option.some number => some number

@[simp] theorem Round.ofOption_asU32 (round : Round) : ofOption round.asU32 = round := by
  cases round <;> rfl

theorem Round.asU32_eq_none {round : Round} : round.asU32 = none ↔ round = nil := by
  cases round <;> simp [asU32]

end ArcNode.Types
