/-
**Authenticity of proposals.**

What a proposer signs is the hash of height, round and data, without separators and without the
other fields of the proposal. Height and round have a fixed width, so the signed bytes determine all
three (**`preimage_injective`**). Given that signatures are not forged and hashes do not collide, a
block assembled from any parts was proposed by the selected proposer with the same height, round,
address and payload (**`assembled_block_was_proposed`**). The round of the proof of lock is not
signed, and a relay can change it (**`valid_round_is_not_signed`**).
-/

import ArcNode.App.Verdicts

namespace ArcNode.App

open ArcNode.Lib ArcNode.Types ArcNode.Store

/-! ### The signed bytes -/

/-- **The signed bytes determine height, round and data.** -/
theorem preimage_injective {height height' : Height} {round round' : Round} {data data' : List Byte}
    (same : ProposalParts.preimage height round data = ProposalParts.preimage height' round' data') :
    height = height' ∧ round = round' ∧ data = data' := by
  obtain ⟨heights, rest⟩ := beBytes_append_inj height.isLt height'.isLt same
  exact ⟨Height.ext heights, Round.toBeBytes_append_inj rest⟩

/-! ### Who signed what -/

/-- **A history of signatures** for a validator set. Validators have signed the proposals of some
blocks, through `make_proposal_parts` and with their own address in the block, and nothing else
verifies under their keys. `hashed` are the byte strings that were ever hashed; Keccak has no
collision among them. -/
structure SigningHistory (E : Externals) (validatorSet : ValidatorSet) where
  Proposed : Validator → ConsensusBlock → Prop
  hashed : Set (List Byte)
  authentic : ∀ validator ∈ validatorSet, ∀ digest signature,
    E.verifySignedBytes digest signature validator.publicKey = some true →
      ∃ block, Proposed validator block ∧ digest = signedHash E block
  ownAddress : ∀ validator block, Proposed validator block → block.proposer = validator.address
  collisionFree : Set.InjOn E.keccak hashed
  proposedHashed : ∀ validator block, Proposed validator block →
    ProposalParts.preimage block.height block.round
      (payloadChunks E block.executionPayload).flatten ∈ hashed
  roundTrip : ∀ validator block, Proposed validator block →
    E.fromSszBytes (E.asSszBytes block.executionPayload) = .ok block.executionPayload

/-- The parts completed by a delivery come out as a block of the current height. -/
def Assembles (E : Externals) (ctx : HandlerContext) (db : AppDb) (streams : PartStreamsMap)
    (delivery : Delivery) (block : ConsensusBlock) : Prop :=
  ∃ parts after, (receive streams delivery).2 = .complete parts ∧
    processProposalParts E ctx db parts = some (after, .block block)

section Authenticity

variable {E : Externals} {ctx : HandlerContext} {parts : ProposalParts} {block : ConsensusBlock}

/-- **A validated proposal was signed** by its validator, with the same height, round and data. -/
theorem proposed_of_validated {validatorSet : ValidatorSet}
    (history : SigningHistory E validatorSet) {validator : Validator}
    (member : validator ∈ validatorSet)
    (validated : validateProposalParts E parts validator = true)
    (seen : ProposalParts.preimage parts.height parts.round parts.bytes ∈ history.hashed) :
    validator.address = parts.proposer ∧ ∃ proposed, history.Proposed validator proposed ∧
        proposed.height = parts.height ∧ proposed.round = parts.round ∧
        E.asSszBytes proposed.executionPayload = parts.bytes := by
  unfold validateProposalParts at validated
  rw [Bool.and_eq_true, decide_eq_true_eq, decide_eq_true_eq] at validated
  obtain ⟨address, verified⟩ := validated
  refine ⟨address, ?_⟩
  obtain ⟨proposed, signed, digest⟩ := history.authentic validator member _ _ verified
  have bytes := history.collisionFree seen (history.proposedHashed _ _ signed) digest
  obtain ⟨heights, rounds, datas⟩ := preimage_injective bytes
  have data : (payloadChunks E proposed.executionPayload).flatten =
      E.asSszBytes proposed.executionPayload := chunks_flatten (by decide) _
  exact ⟨proposed, signed, heights.symm, rounds.symm, data.symm.trans datas.symm⟩

/-- **Every assembled block was proposed**: whatever messages complete the stream, the selected
proposer of its height and round has signed a proposal with the same height, round, address and
payload. -/
theorem assembled_block_was_proposed (history : SigningHistory E ctx.validatorSet) {db : AppDb}
    {streams : PartStreamsMap} {delivery : Delivery}
    (assembles : Assembles E ctx db streams delivery block)
    (seen : ∀ parts, (receive streams delivery).2 = .complete parts →
      ProposalParts.preimage parts.height parts.round parts.bytes ∈ history.hashed) :
    ∃ proposer proposed, block.height = ctx.currentHeight ∧
      selectProposer ctx.validatorSet block.height block.round = some proposer ∧
      history.Proposed proposer proposed ∧ proposed.height = block.height ∧
      proposed.round = block.round ∧ proposed.proposer = block.proposer ∧
      proposed.executionPayload = block.executionPayload := by
  obtain ⟨parts, after, completed, processed⟩ := assembles
  obtain ⟨atHeight, -, -, proposer, resolved, validated, assembled⟩ :=
    processProposalParts_eq_block_iff.mp processed
  obtain ⟨heights, rounds, addresses, decoded⟩ := assembleBlockFromParts_ok assembled
  obtain ⟨address, proposed, signed, sameHeight, sameRound, bytes⟩ :=
    proposed_of_validated history (selectProposer_mem resolved) validated (seen parts completed)
  refine ⟨proposer, proposed, heights.trans atHeight, ?_, signed, sameHeight.trans heights.symm,
    sameRound.trans rounds.symm, ?_, ?_⟩
  · rw [heights, rounds]
    exact resolved
  · rw [history.ownAddress proposer proposed signed, address, addresses]
  · have payload := history.roundTrip _ _ signed
    rw [bytes, decoded] at payload
    exact (Except.ok.inj payload).symm

end Authenticity

section Relabelled

/-- Externals under which the sample proposal is the only thing ever signed. -/
def signedOnceExternals : Externals :=
  { sampleExternals with
    verifySignedBytes := fun digest signature key =>
      some (key = 7 ∧ digest = sampleDigest ∧ signature = bareSignature 7 sampleDigest) }

/-- The one validator, which has proposed the sample block. -/
def signedOnce : SigningHistory signedOnceExternals sampleContext.validatorSet where
  Proposed validator block := validator = ⟨3, 7, 10⟩ ∧ block = sampleBlock
  hashed := {ProposalParts.preimage 1 (.some 0) (bareSszBytes genuinePayload)}
  authentic := by
    intro validator member digest signature verified
    refine ⟨sampleBlock, ⟨List.mem_singleton.mp member, rfl⟩, ?_⟩
    obtain ⟨-, same, -⟩ := of_decide_eq_true (Option.some.inj verified)
    rw [same]
    decide +kernel
  ownAddress := by
    rintro validator block ⟨rfl, rfl⟩
    rfl
  collisionFree := Set.injOn_singleton _ _
  proposedHashed := by
    rintro validator block ⟨rfl, rfl⟩
    exact Set.mem_singleton_iff.mpr (by decide +kernel)
  roundTrip := by
    rintro validator block ⟨rfl, rfl⟩
    decide +kernel

variable (polRound : Round)

/-- The sample proposal as a relay repeats it, with another round in `Init`. -/
def relabelledParts : ProposalParts where
  init := ⟨1, .some 0, polRound, 3⟩
  data := payloadChunks signedOnceExternals genuinePayload
  signature := bareSignature 7 sampleDigest

/-- The messages of the relabelled proposal, in order, from one peer. -/
def relabelledDeliveries : List Delivery :=
  (streamMessages sampleKey.streamId (relabelledParts polRound).toList).map fun message =>
    ⟨[1], message, 100⟩

/-- The receiver when all messages but the last have arrived, and the last one. -/
def relabelledStreams : PartStreamsMap :=
  run receive (.new 1 4 0) ((relabelledDeliveries polRound).take 3)

def relabelledFinal : Delivery :=
  (relabelledDeliveries polRound).getD 3 ⟨[], ⟨[], 0, .fin⟩, 0⟩

/-- The block that is assembled from the relabelled proposal. -/
def relabelledBlock : ConsensusBlock :=
  { sampleBlock with validRound := polRound, signature := some (bareSignature 7 sampleDigest) }

theorem assembles_relabelled {polRound : Round}
    (completed : (receive (relabelledStreams polRound) (relabelledFinal polRound)).2 =
      .complete (relabelledParts polRound)) :
    Assembles signedOnceExternals sampleContext ∅ (relabelledStreams polRound)
      (relabelledFinal polRound) (relabelledBlock polRound) := by
  refine ⟨relabelledParts polRound, ∅, completed,
    processProposalParts_eq_block_iff.mpr ⟨rfl, le_rfl, rfl, ⟨3, 7, 10⟩, ?_, ?_, ?_⟩⟩
  · show selectProposer sampleContext.validatorSet 1 (.some 0) = some ⟨3, 7, 10⟩
    decide +kernel
  · show validateProposalParts signedOnceExternals (relabelledParts .nil) ⟨3, 7, 10⟩ = true
    decide +kernel
  · have decoded : signedOnceExternals.fromSszBytes (relabelledParts polRound).bytes =
        .ok genuinePayload := by
      show signedOnceExternals.fromSszBytes (relabelledParts .nil).bytes = .ok genuinePayload
      decide +kernel
    unfold assembleBlockFromParts
    rw [decoded]
    rfl

theorem relabelled_hashed :
    ProposalParts.preimage (relabelledParts polRound).height (relabelledParts polRound).round
      (relabelledParts polRound).bytes ∈ signedOnce.hashed := by
  refine Set.mem_singleton_iff.mpr ?_
  show ProposalParts.preimage 1 (.some 0) (relabelledParts .nil).bytes = _
  decide +kernel

/-- **The round of the proof of lock is not signed**: the proposer has proposed one block, without a
valid round, and a relay makes the receiver assemble it with the valid round `0`. -/
theorem valid_round_is_not_signed :
    Assembles signedOnceExternals sampleContext ∅ (relabelledStreams (.some 0))
        (relabelledFinal (.some 0)) (relabelledBlock (.some 0)) ∧
      (∀ parts, (receive (relabelledStreams (.some 0)) (relabelledFinal (.some 0))).2 =
        .complete parts → ProposalParts.preimage parts.height parts.round parts.bytes ∈
          signedOnce.hashed) ∧
      ∀ validator proposed, signedOnce.Proposed validator proposed →
        proposed.validRound ≠ (relabelledBlock (.some 0)).validRound := by
  have completed : (receive (relabelledStreams (.some 0)) (relabelledFinal (.some 0))).2 =
    .complete (relabelledParts (.some 0)) := by decide +kernel
  refine ⟨assembles_relabelled completed, ?_, ?_⟩
  · intro parts found
    rw [← InsertResult.complete.inj (completed.symm.trans found)]
    exact relabelled_hashed (.some 0)
  · rintro validator proposed ⟨-, rfl⟩
    decide

theorem assembled_block_was_proposed_sample :
    ∃ proposer proposed, (relabelledBlock .nil).height = sampleContext.currentHeight ∧
      selectProposer sampleContext.validatorSet (relabelledBlock .nil).height
        (relabelledBlock .nil).round = some proposer ∧
      signedOnce.Proposed proposer proposed ∧ proposed.height = (relabelledBlock .nil).height ∧
      proposed.round = (relabelledBlock .nil).round ∧
      proposed.proposer = (relabelledBlock .nil).proposer ∧
      proposed.executionPayload = (relabelledBlock .nil).executionPayload := by
  have completed : (receive (relabelledStreams .nil) (relabelledFinal .nil)).2 =
    .complete (relabelledParts .nil) := by decide +kernel
  refine assembled_block_was_proposed signedOnce (assembles_relabelled completed) ?_
  intro parts found
  rw [← InsertResult.complete.inj (completed.symm.trans found)]
  exact relabelled_hashed .nil

end Relabelled

end ArcNode.App
