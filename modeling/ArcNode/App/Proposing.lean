/-
**What a request for a value streams.**

A stream carries one block, which a receiver can read from its messages (`streamedBlock`). Asked for
a value, a node proposes its own row of the round if there is exactly one, and a new block if there
is none (**`getValue_cases`**); the block is stored with its signature before the messages leave. A
proposal that is streamed again is a row that carries a signature (**`restreamProposal_cases`**).
-/

import ArcNode.App.NodeSteps

namespace ArcNode.App

open ArcNode.Lib ArcNode.Types ArcNode.Store

/-! ### What a stream carries -/

/-- The block a receiver reads from the messages of a stream. -/
def streamedBlock (E : Externals) (messages : List StreamMessage) : Option ConsensusBlock :=
  match ProposalParts.new (messages.filterMap fun message => message.content.intoData) with
  | .ok parts => (assembleBlockFromParts E parts).toOption
  | .error _ => none

section Stream

variable {E : Externals} {signBytes : BlockHash → Option Signature} {block : ConsensusBlock}

theorem streamedBlock_nil : streamedBlock E [] = none := rfl

theorem streamedBlock_prepareStream
    (roundTrip : ∀ payload, E.fromSszBytes (E.asSszBytes payload) = .ok payload)
    {streamId : StreamId} {messages : List StreamMessage} {signature : Signature}
    (prepared : prepareStream E signBytes streamId block = some (messages, signature)) :
    streamedBlock E messages =
      some { block with validity := .valid, signature := some signature } := by
  obtain ⟨rfl, -⟩ := prepareStream_eq_some prepared
  unfold streamedBlock
  rw [filterMap_streamMessages, ProposalParts.new_toList]
  dsimp only
  rw [assembleBlockFromParts_partsOf (roundTrip _)]
  rfl

end Stream

/-! ### What the two handlers stream -/

section Handlers

variable {E : Externals} {engine : Engine} {signBytes : BlockHash → Option Signature}
  {config : NodeConfig} {world : World} {state : State} {block : ConsensusBlock}

/-- **A block is proposed**: what is streamed carries it, and its row is stored with the
signature. -/
structure Proposes (E : Externals) (world : World) (block : ConsensusBlock) (after : World)
    (messages : List StreamMessage) : Prop where
  carried : ∃ signature, streamedBlock E messages =
      some { block with validity := .valid, signature := some signature } ∧
    after.db.undecidedBlocks =
      world.db.undecidedBlocks.insert block.key { block with signature := some signature }
  pending : after.db.pendingProposalParts = world.db.pendingProposalParts
  certificates : after.db.certificates = world.db.certificates

theorem mem_ownRows {db : AppDb} {own : Address} {height : Height} {round : Round}
    {blocks : List ConsensusBlock} (read : getUndecidedBlocks db height round = some blocks)
    {row : ConsensusBlock} :
    row ∈ blocks.filter (fun block => block.proposer = own) ↔ row.proposer = own ∧
        ∃ key, db.undecidedBlocks.get key = some row ∧ key.height = height ∧ key.round = round := by
  rw [List.mem_filter, decide_eq_true_eq, and_comm, mem_getUndecidedBlocks read]

theorem getPreviouslyBuiltBlock_eq_some {db : AppDb} {own : Address} {height : Height}
    {round : Round} (built : getPreviouslyBuiltBlock db own height round = some (some block)) :
    (block.proposer = own ∧
      ∃ key, db.undecidedBlocks.get key = some block ∧ key.height = height ∧ key.round = round) ∧
      ∀ key row, db.undecidedBlocks.get key = some row → key.height = height → key.round = round →
        row.proposer = own → row = block := by
  obtain ⟨blocks, read, chosen⟩ := Option.bind_eq_some_iff.mp built
  split at chosen
  · cases chosen
  · rename_i only
    obtain rfl := Option.some.inj (Option.some.inj chosen)
    refine ⟨(mem_ownRows read).mp (only ▸ List.mem_singleton_self _),
      fun key row found height round own => ?_⟩
    have member := (mem_ownRows read).mpr ⟨own, key, found, height, round⟩
    rw [only] at member
    exact List.mem_singleton.mp member
  · cases chosen

theorem getPreviouslyBuiltBlock_eq_none {db : AppDb} {own : Address} {height : Height}
    {round : Round} (built : getPreviouslyBuiltBlock db own height round = some none)
    {key : BlockKey} {row : ConsensusBlock} (found : db.undecidedBlocks.get key = some row)
    (atHeight : key.height = height) (atRound : key.round = round) : row.proposer ≠ own := by
  intro ours
  obtain ⟨blocks, read, chosen⟩ := Option.bind_eq_some_iff.mp built
  have member := (mem_ownRows read).mpr ⟨ours, key, found, atHeight, atRound⟩
  split at chosen
  · rename_i nothing
    rw [nothing] at member
    cases member
  · cases chosen
  · cases chosen

theorem Proposes.of_sameTables {before : World} {after : World} {messages : List StreamMessage}
    (same : SameTables before.db world.db) (facts : Proposes E world block after messages) :
    Proposes E before block after messages where
  carried := by
    rw [← same.undecidedBlocks]
    exact facts.carried
  pending := facts.pending.trans same.pendingProposalParts
  certificates := facts.certificates.trans same.certificates

variable (roundTrip : ∀ payload, E.fromSszBytes (E.asSszBytes payload) = .ok payload)

include roundTrip

theorem proposeBlock_cases (world : World) (streamId : StreamId) (block : ConsensusBlock) :
    proposeBlock E signBytes world streamId block = (world, .failed) ∨
      ∃ after messages, proposeBlock E signBytes world streamId block =
        (after, .proposed messages) ∧ Proposes E world block after messages := by
  unfold proposeBlock
  cases prepared : prepareStream E signBytes streamId block with
  | none => exact .inl rfl
  | some result =>
    obtain ⟨messages, signature⟩ := result
    exact .inr ⟨_, messages, rfl, ⟨⟨signature, streamedBlock_prepareStream roundTrip prepared, rfl⟩,
      rfl, rfl⟩⟩

theorem onGetValue_cases (world : World) (streamId : StreamId) (height : Height) (round : Round)
    (own : Address) (previousBlock : Option ExecutionBlock) (answer : BuildAnswer) :
    (SameTables world.db (onGetValue E engine signBytes world streamId height round own previousBlock
        answer).1.db ∧ ∀ messages, (onGetValue E engine signBytes world streamId height round own
          previousBlock answer).2 ≠ .proposed messages) ∨
      ∃ block after messages, onGetValue E engine signBytes world streamId height round own
          previousBlock answer = (after, .proposed messages) ∧
        Requested world.db own height round block ∧ Proposes E world block after messages := by
  obtain ⟨base, tables, same | same | ⟨block, requested, same⟩⟩ := onGetValue_requests
    (rfl : onGetValue E engine signBytes world streamId height round own previousBlock answer = _)
  · rw [same]
    exact .inl ⟨tables, fun _ other => by cases other⟩
  · rw [same]
    exact .inl ⟨tables, fun _ other => by cases other⟩
  · rcases proposeBlock_cases roundTrip base streamId block with
      failed | ⟨after, messages, proposed, facts⟩
    · rw [same, failed]
      exact .inl ⟨tables, fun _ other => by cases other⟩
    · exact .inr ⟨block, after, messages, same.trans proposed, requested, facts.of_sameTables tables⟩

/-- **A request for a value** proposes the block it is meant for, or streams nothing and writes no
row. -/
theorem getValue_cases (world : World) (state : State) (height : Height) (round : Round)
    (answer : BuildAnswer) :
    (SameTables world.db (getValue E engine signBytes config world state height round answer).1.db ∧
      (getValue E engine signBytes config world state height round answer).2.2 = []) ∨
      ∃ block, Requested world.db config.address height round block ∧ Proposes E world block
          (getValue E engine signBytes config world state height round answer).1
          (getValue E engine signBytes config world state height round answer).2.2 := by
  unfold getValue
  cases nextStreamId state height round with
  | none => exact .inl ⟨.refl _, rfl⟩
  | some used =>
    dsimp only
    rcases @onGetValue_cases E engine signBytes roundTrip world used.1 height round config.address
      state.previousBlock answer with
      ⟨tables, silent⟩ | ⟨block, after, messages, same, requested, facts⟩
    · generalize onGetValue E engine signBytes world used.1 height round config.address
        state.previousBlock answer = result at tables silent ⊢
      obtain ⟨after, outcome⟩ := result
      cases outcome with
      | failed | declined => exact .inl ⟨tables, rfl⟩
      | proposed messages => exact absurd rfl (silent messages)
    · rw [same]
      exact .inr ⟨block, requested, facts⟩

/-- **A proposal that is streamed again** is a row with a signature. -/
theorem restreamProposal_cases (world : World) (state : State) (height : Height) (valueId : BlockHash) :
    (restreamProposal E signBytes world state height valueId).2 = [] ∨
      ∃ key block signature, world.db.undecidedBlocks.get key = some block ∧
        block.signature.isSome = true ∧
        streamedBlock E (restreamProposal E signBytes world state height valueId).2 =
          some { block with validity := .valid, signature := some signature } := by
  unfold restreamProposal
  cases found : getUndecidedBlockByHeightAndBlockHash world.db height valueId with
  | none => exact .inl rfl
  | some block =>
    dsimp only
    cases nextStreamId state block.height block.round with
    | none => exact .inl rfl
    | some used =>
      dsimp only
      cases signed : block.signature with
      | none => exact .inl rfl
      | some known =>
        dsimp only [Option.isNone_some]
        rw [if_neg Bool.false_ne_true]
        cases prepared : prepareStream E signBytes used.1 block with
        | none => exact .inl rfl
        | some result =>
          obtain ⟨messages, signature⟩ := result
          obtain ⟨⟨key, row⟩, first, rfl⟩ := Option.map_eq_some_iff.mp found
          obtain ⟨member, -⟩ := Table.findFirst_eq_some.mp first
          exact .inr ⟨key, row, signature, Table.get_eq_some.mpr member,
            Option.isSome_iff_exists.mpr ⟨known, signed⟩,
            streamedBlock_prepareStream roundTrip prepared⟩

end Handlers

end ArcNode.App
