/-
**What leaves the decided tables alone.**

Decided payloads and certificates are written by two steps only, the commit of a decision and the
extension of its certificate. `DecidedSubset before after` is the frame of everything else: cleaning
and pruning remove entries, and the handlers that ingest, validate or propose blocks do not touch
the two tables. Of the pending parts, these handlers drop some and keep at most the parts that just
arrived (`IngestFrame`).
-/

import ArcNode.App.Node

namespace ArcNode.App

open ArcNode.Lib ArcNode.Types ArcNode.Store

/-- The decided payloads and the certificates lose entries at most. -/
structure DecidedSubset (before after : AppDb) : Prop where
  payloads : ∀ height payload, after.decidedBlocks.get height = some payload →
    before.decidedBlocks.get height = some payload
  certificates : ∀ height stored, after.certificates.get height = some stored →
    before.certificates.get height = some stored

/-! ### Maintenance -/

variable (db : AppDb) (height : Height)

section Subset

variable {before middle after : AppDb}

theorem DecidedSubset.of_eq (payloads : after.decidedBlocks = before.decidedBlocks)
    (certificates : after.certificates = before.certificates) : DecidedSubset before after where
  payloads height payload found := by rwa [payloads] at found
  certificates height stored found := by rwa [certificates] at found

theorem DecidedSubset.refl : DecidedSubset db db := .of_eq rfl rfl

theorem DecidedSubset.trans (first : DecidedSubset before middle)
    (second : DecidedSubset middle after) : DecidedSubset before after where
  payloads height payload found := first.payloads height payload (second.payloads _ _ found)
  certificates height stored found :=
    first.certificates height stored (second.certificates _ _ found)

theorem decidedSubset_cleanStaleConsensusData :
    DecidedSubset db (db.cleanStaleConsensusData height) :=
  .of_eq rfl rfl

theorem decidedSubset_pruneHistoricalCerts (config : PruningConfig) (db : AppDb)
    (latest : Height) : DecidedSubset db (pruneHistoricalCerts config db latest) := by
  unfold pruneHistoricalCerts
  by_cases enabled : config.enabled = true
  · rw [if_pos enabled]
    exact ⟨fun _ _ found => found, fun _ _ found => get_of_get_pruned found⟩
  · rw [if_neg enabled]
    exact .refl db

theorem decidedSubset_pruneBlocks : DecidedSubset db (pruneBlocks db) :=
  ⟨fun _ _ found => get_of_get_pruned found, fun _ _ found => found⟩

end Subset

/-! ### Ingestion -/

theorem IngestFrame.decided {E : Externals} {arrived : Option ProposalParts} {before after : AppDb}
    (frame : IngestFrame E arrived before after) : DecidedSubset before after :=
  .of_eq frame.decidedBlocks frame.certificates

def InsertResult.completed : InsertResult → Option ProposalParts
  | complete parts => some parts
  | _ => none

variable (round : Round)

section Ingestion

variable {E : Externals} {engine : Engine} {ctx : HandlerContext} {world : World}
  {arrived : Option ProposalParts}

theorem ingestFrame_onReceivedProposalPart (streams : PartStreamsMap) (delivery : Delivery) :
    IngestFrame E (receive streams delivery).2.completed world.db
      (onReceivedProposalPart E engine ctx streams world delivery).2.1.db := by
  unfold onReceivedProposalPart
  generalize receive streams delivery = result
  obtain ⟨inserted, outcome⟩ := result
  cases outcome with
  | complete parts => exact ingestFrame_ingestStep (.completeParts ctx parts)
  | _ => exact .refl _

theorem ingestFrame_processPendingProposalParts {pending : List ProposalParts} {after : World}
    (processed : processPendingProposalParts E engine ctx world pending = some after) :
    IngestFrame E none world.db after.db := by
  rw [(processPendingProposalParts_eq_run processed).1]
  clear processed
  induction pending generalizing world with
  | nil => exact .refl _
  | cons parts rest ih => exact (ingestFrame_ingestStep (.pendingParts ctx parts)).trans ih

theorem ingestFrame_validateUndecidedBlocks (blocks : List ConsensusBlock) :
    IngestFrame E arrived world.db (validateUndecidedBlocks engine ctx world blocks).1.db := by
  induction blocks generalizing world with
  | nil => exact .refl _
  | cons block rest ih =>
    exact (validateUndecidedBlock_settled engine ctx world block).1.frame.trans ih

theorem ingestFrame_fetchAndProcessPendingProposals {height : Height} {round : Round}
    {after : World} {values : List ProposedValue}
    (fetched : fetchAndProcessPendingProposals E engine ctx world height round =
      some (after, values)) : IngestFrame E none world.db after.db := by
  unfold fetchAndProcessPendingProposals at fetched
  simp only [Option.bind_eq_bind, Option.bind_eq_some_iff, Option.some.injEq,
    Prod.mk.injEq] at fetched
  obtain ⟨processed, pending, rfl, -⟩ := fetched
  exact (ingestFrame_processPendingProposalParts pending).trans
    (ingestFrame_validateUndecidedBlocks _)

theorem ingestFrame_onProcessSyncedValue (proposer : Address) (valueBytes : List Byte) :
    IngestFrame E none world.db
      (onProcessSyncedValue E engine ctx world height round proposer valueBytes).1.db :=
  ingestFrame_ingestStep (.syncedValue ctx height round proposer valueBytes)

end Ingestion

/-! ### Rounds and proposals -/

section Handlers

variable {E : Externals} {engine : Engine} {signBytes : BlockHash → Option Signature}
  {config : NodeConfig} {world : World} {state : State} {arrived : Option ProposalParts}

theorem ingestFrame_startedRound (localTime : Option (Fin (2 ^ 64))) :
    IngestFrame E none world.db
      (startedRound E engine config world state height round localTime).1.db := by
  unfold startedRound
  cases enterRound state height round with
  | none => exact .refl _
  | some entered =>
    dsimp only
    cases fetched : fetchAndProcessPendingProposals E engine (entered.context config localTime) world
        height round with
    | none => exact .refl _
    | some result => exact ingestFrame_fetchAndProcessPendingProposals fetched

theorem ingestFrame_interruptedRound (turns : ℕ) : IngestFrame E none world.db
      (interruptedRound E engine config world state height round turns).db := by
  unfold interruptedRound
  cases enterRound state height round with
  | none => exact .refl _
  | some entered =>
    dsimp only
    cases processed : processPendingProposalParts E engine (entered.context config none) world
        ((getPendingProposalParts world.db height round).take turns) with
    | none => exact .refl _
    | some after =>
      exact (ingestFrame_processPendingProposalParts processed).trans
        (ingestFrame_validateUndecidedBlocks _)

theorem ingestFrame_proposeBlock (streamId : StreamId) (block : ConsensusBlock) :
    IngestFrame E arrived world.db (proposeBlock E signBytes world streamId block).1.db := by
  unfold proposeBlock
  cases prepareStream E signBytes streamId block with
  | none => exact .refl _
  | some result => exact ingestFrame_storeUndecidedBlock _ _

/-- Which block a request for a value proposes: the own row of the round, or a new block if there is
none. -/
def Requested (db : AppDb) (own : Address) (height : Height) (round : Round)
    (block : ConsensusBlock) : Prop :=
  getPreviouslyBuiltBlock db own height round = some (some block) ∨
    getPreviouslyBuiltBlock db own height round = some none ∧ block.height = height ∧
      block.round = round ∧ block.proposer = own

theorem buildAndValidateBlock_spec (engine : Engine) (world : World) (height : Height)
    (round : Round) (own : Address) (previous : ExecutionBlock) (payload : ExecutionPayload) :
    SameTables world.db
        (buildAndValidateBlock engine world height round own previous payload).1.db ∧
      ∀ block ∈ (buildAndValidateBlock engine world height round own previous payload).2,
        block.height = height ∧ block.round = round ∧ block.proposer = own := by
  unfold buildAndValidateBlock
  cases checkPayloadBinding payload height (some previous) with
  | error error => exact ⟨.refl _, fun block member => by cases member⟩
  | ok passed =>
    refine ⟨validateConsensusBlock_sameTables, fun block member => ?_⟩
    simp only [Option.mem_def] at member
    split_ifs at member
    rw [← Option.some.inj member]
    exact ⟨rfl, rfl, rfl⟩

/-- **A request for a value ends** without a proposal, or with that of the requested block. -/
theorem onGetValue_requests {streamId : StreamId} {height : Height} {round : Round} {own : Address}
    {previousBlock : Option ExecutionBlock} {answer : BuildAnswer} {result : World × GetValueOutcome}
    (asked : onGetValue E engine signBytes world streamId height round own previousBlock answer =
      result) :
    ∃ base : World, SameTables world.db base.db ∧
      (result = (base, .failed) ∨ result = (base, .declined) ∨
        ∃ block, Requested world.db own height round block ∧
          result = proposeBlock E signBytes base streamId block) := by
  subst asked
  unfold onGetValue
  cases built : getPreviouslyBuiltBlock world.db own height round with
  | none => exact ⟨world, .refl _, .inl rfl⟩
  | some found =>
    cases found with
    | some block =>
      dsimp only
      split_ifs
      · exact ⟨world, .refl _, .inr (.inr ⟨block, .inl built, rfl⟩)⟩
      · exact ⟨world, .refl _, .inl rfl⟩
    | none =>
      cases previousBlock with
      | none => exact ⟨world, .refl _, .inl rfl⟩
      | some previous =>
        dsimp only
        split_ifs
        · exact ⟨world, .refl _, .inl rfl⟩
        · cases answer with
          | failed => exact ⟨world, .refl _, .inl rfl⟩
          | timedOut => exact ⟨world, .refl _, .inr (.inl rfl)⟩
          | built payload =>
            obtain ⟨tables, fresh⟩ :=
              buildAndValidateBlock_spec engine world height round own previous payload
            dsimp only
            generalize buildAndValidateBlock engine world height round own previous payload = result
              at tables fresh ⊢
            obtain ⟨after, made⟩ := result
            cases made with
            | none => exact ⟨after, tables, .inl rfl⟩
            | some block =>
              exact ⟨after, tables, .inr (.inr ⟨block, .inr ⟨built, fresh block rfl⟩, rfl⟩)⟩

theorem ingestFrame_getValue (answer : BuildAnswer) : IngestFrame E arrived world.db
      (getValue E engine signBytes config world state height round answer).1.db := by
  unfold getValue
  cases nextStreamId state height round with
  | none => exact .refl _
  | some used =>
    dsimp only
    obtain ⟨base, tables, same | same | ⟨block, -, same⟩⟩ := onGetValue_requests
      (rfl : onGetValue E engine signBytes world used.1 height round config.address
        state.previousBlock answer = _)
    · rw [same]
      exact tables.ingestFrame
    · rw [same]
      exact tables.ingestFrame
    · have frame : IngestFrame E arrived world.db (proposeBlock E signBytes base used.1 block).1.db :=
        tables.ingestFrame.trans (ingestFrame_proposeBlock _ _)
      rw [same]
      generalize proposeBlock E signBytes base used.1 block = result at frame ⊢
      obtain ⟨after, outcome⟩ := result
      cases outcome with
      | failed | declined | proposed messages => exact frame

end Handlers

end ArcNode.App
