/-
**What one ingestion does.**

Every ingestion is about at most one block (`ingested`). It obtains a verdict on it
(`IngestInput.verdict`) and writes the block with that verdict or leaves the table alone; the four
paths differ only in when they write (`IngestInput.writes`). **`ingestStep_settled`** says so for
all of them, together with when the engine is asked and what is reported, and **`ingestStep_idle`**
that an input without a block does nothing. A round start is a run of single ingestions
(**`fetchAndProcessPendingProposals_eq_run`**); its scan agrees with reads of single keys
(**`scan_agrees_with_reads`**).
-/

import ArcNode.App.Ingest

namespace ArcNode.App

open ArcNode.Lib ArcNode.Types ArcNode.Store

/-! ### The block, the verdict and the row -/

section Spec

variable (E : Externals) (engine : Engine)

/-- The block an ingestion is about, if its input gives one. -/
def ingested (world : World) : IngestInput → Option ConsensusBlock
  | .completeParts ctx parts =>
    match processProposalParts E ctx world.db parts with
    | some (_, .block block) => some block
    | _ => none
  | .pendingParts ctx parts =>
    match resolveExpectedProposer ctx.validatorSet parts with
    | none => none
    | some expectedProposer =>
      if validateProposalParts E parts expectedProposer then
        (assembleBlockFromParts E parts).toOption
      else none
  | .syncedValue _ height round proposer valueBytes =>
    (E.fromSszBytes valueBytes).toOption.map (syncedBlock height round proposer)
  | .undecidedBlock _ key => world.db.undecidedBlocks.get key

/-- The verdict an ingestion obtains on a block, if a conclusive one. -/
def IngestInput.verdict (world : World) (input : IngestInput) (block : ConsensusBlock) :
    Option Validity :=
  conclusiveVerdict block input.ctx.previousBlock (world.nextAnswer engine block)

/-- The block may be stored with a verdict. -/
def Storable (block : ConsensusBlock) (validity : Validity) : Prop :=
  { block with validity := validity }.mayBeStoredAsUndecided E.canonicalBlockHash = true
  deriving Decidable

/-- Whether an ingestion writes its block with a verdict: each path has its own rule. -/
def IngestInput.writes (world : World) (block : ConsensusBlock) (validity : Validity) :
    IngestInput → Prop
  | completeParts _ _ => Storable E block validity
  | pendingParts _ _ => True
  | syncedValue ctx _ _ _ _ => Storable E block validity ∧
      (Bound block.executionPayload block.height ctx.previousBlock →
        world.db.undecidedBlocks.get block.key = none)
  | undecidedBlock _ _ => validity ≠ block.validity

instance (world : World) (block : ConsensusBlock) (validity : Validity) (input : IngestInput) :
    Decidable (input.writes E world block validity) := by
  cases input <;> dsimp only [IngestInput.writes] <;> infer_instance

end Spec

/-- The undecided table after a verdict on a block. -/
def settle (table : Table BlockKey ConsensusBlock) (block : ConsensusBlock)
    (verdict : Option Validity) (writes : Validity → Prop) [DecidablePred writes] :
    Table BlockKey ConsensusBlock :=
  match verdict with
  | none => table
  | some validity =>
    if writes validity then table.insert block.key { block with validity := validity } else table

section Settle

variable {table : Table BlockKey ConsensusBlock} {block row : ConsensusBlock}
  {verdict : Option Validity} {writes : Validity → Prop} [DecidablePred writes] {key : BlockKey}

theorem settle_get_of_ne (ne : key ≠ block.key) :
    (settle table block verdict writes).get key = table.get key := by
  unfold settle
  cases verdict with
  | none => rfl
  | some validity =>
    by_cases written : writes validity
    · simp only [if_pos written]
      exact Table.get_insert_of_ne _ _ ne
    · simp only [if_neg written]

theorem settle_get_self {validity : Validity} :
    (settle table block (some validity) writes).get block.key =
      if writes validity then some { block with validity := validity }
      else table.get block.key := by
  unfold settle
  by_cases written : writes validity
  · simp only [if_pos written, Table.get_insert_self]
  · simp only [if_neg written]

/-- **A row after an ingestion** is an old one, or the block with the verdict. -/
theorem settle_cases (found : (settle table block verdict writes).get key = some row) :
    table.get key = some row ∨ (key = block.key ∧ ∃ validity, verdict = some validity ∧
      writes validity ∧ row = { block with validity := validity }) := by
  by_cases same : key = block.key
  · cases verdict with
    | none => exact .inl found
    | some validity =>
      rw [same, settle_get_self] at found
      by_cases written : writes validity
      · rw [if_pos written, Option.some.injEq] at found
        exact .inr ⟨same, validity, rfl, written, found.symm⟩
      · rw [if_neg written] at found
        exact .inl (same ▸ found)
  · rw [settle_get_of_ne same] at found
    exact .inl found

end Settle

/-! ### The four paths -/

variable {height : Height} {round : Round}

section Paths

variable {E : Externals} {engine : Engine} {ctx : HandlerContext} {world : World}
  {block : ConsensusBlock} {parts : ProposalParts}

/-- **When a block comes out of the parts**: at the current height, not in a later round, from the
selected proposer and with its signature. -/
theorem processProposalParts_eq_block_iff {db after : AppDb} :
    processProposalParts E ctx db parts = some (after, .block block) ↔
      parts.height = ctx.currentHeight ∧ parts.round ≤ ctx.currentRound ∧ after = db ∧
        ∃ expectedProposer, resolveExpectedProposer ctx.validatorSet parts = some expectedProposer ∧
          validateProposalParts E parts expectedProposer = true ∧
          assembleBlockFromParts E parts = .ok block := by
  unfold processProposalParts
  by_cases past : parts.height < ctx.currentHeight
  · simp [past, past.ne]
  by_cases future : ctx.currentHeight < parts.height ∨ ctx.currentRound < parts.round
  · simp only [if_neg past, if_pos future, Option.bind_eq_bind, Option.bind_eq_some_iff,
      Option.some.injEq, Prod.mk.injEq]
    refine ⟨?_, ?_⟩
    · rintro ⟨⟨stored, kept⟩, -, -, outcome⟩
      cases kept <;> cases outcome
    · rintro ⟨same, early, -⟩
      rcases future with later | later
      · exact absurd same later.ne'
      · exact absurd later (not_lt.mpr early)
  rw [if_neg past, if_neg future, Option.bind_eq_bind, Option.bind_eq_some_iff]
  rw [not_or, not_lt, not_lt] at future
  have here : parts.height = ctx.currentHeight := le_antisymm future.1 (not_lt.mp past)
  refine ⟨?_, ?_⟩
  · rintro ⟨expectedProposer, resolved, checked⟩
    by_cases valid : validateProposalParts E parts expectedProposer = true
    · rw [if_pos valid] at checked
      cases assembled : assembleBlockFromParts E parts with
      | error error => simp [assembled] at checked
      | ok found =>
        simp only [assembled, Option.some.injEq, Prod.mk.injEq, PartsOutcome.block.injEq] at checked
        obtain ⟨rfl, rfl⟩ := checked
        exact ⟨here, future.2, rfl, expectedProposer, resolved, valid, rfl⟩
    · rw [if_neg valid] at checked
      simp at checked
  · rintro ⟨-, -, rfl, expectedProposer, resolved, valid, assembled⟩
    refine ⟨expectedProposer, resolved, ?_⟩
    rw [if_pos valid, assembled]

/-- The pending parts are old ones, or the parts that arrived under their own key. -/
def PendingFrom (E : Externals) (arrived : Option ProposalParts) (before after : AppDb) : Prop :=
  ∀ key parts, after.pendingProposalParts.get key = some parts →
    before.pendingProposalParts.get key = some parts ∨
      arrived = some parts ∧ key = parts.pendingKey E.keccak

theorem incrementBy_eq_some {height next : Height} {amount : ℕ} :
    height.incrementBy amount = some next ↔ next.val = height.val + amount := by
  unfold Height.incrementBy
  split_ifs with fits
  · rw [Option.some_inj, Height.ext_iff]
    exact eq_comm
  · have := next.isLt
    simp only [false_iff]
    omega

/-- **A proposal is declined and nothing changes, or it is stored**, inside the window and while
there is room. -/
theorem maybeStorePendingProposal_cases {db after : AppDb} {kept : Bool}
    (stored : maybeStorePendingProposal E ctx db parts = some (after, kept)) :
    kept = false ∧ after = db ∨
      kept = true ∧ db.pendingProposalParts.len < ctx.maxPendingProposals ∧
        parts.height.val ≤ ctx.currentHeight.val + (ctx.maxPendingProposals - 1) ∧
        after = { db with
          pendingProposalParts := db.pendingProposalParts.insert (parts.pendingKey E.keccak) parts } := by
  unfold maybeStorePendingProposal insertPendingProposalParts at stored
  simp only [Option.bind_eq_bind, Option.bind_eq_some_iff] at stored
  obtain ⟨maxFutureHeight, -, tooFar⟩ := stored
  by_cases far : maxFutureHeight < parts.height
  · rw [if_pos far, Option.some.injEq, Prod.mk.injEq] at tooFar
    exact .inl ⟨tooFar.2.symm, tooFar.1.symm⟩
  rw [if_neg far, Option.bind_eq_some_iff] at tooFar
  obtain ⟨maxAllowedHeight, bound, outside⟩ := tooFar
  by_cases beyond : maxAllowedHeight < parts.height
  · rw [if_pos beyond, Option.some.injEq, Prod.mk.injEq] at outside
    exact .inl ⟨outside.2.symm, outside.1.symm⟩
  by_cases room : db.pendingProposalParts.len < ctx.maxPendingProposals
  · rw [if_neg beyond, if_pos room, Option.some.injEq, Prod.mk.injEq] at outside
    have high : parts.height.val ≤ maxAllowedHeight.val := not_lt.mp beyond
    rw [incrementBy_eq_some.mp bound] at high
    exact .inr ⟨outside.2.symm, room, high, outside.1.symm⟩
  · rw [if_neg beyond, if_neg room, Option.some.injEq, Prod.mk.injEq] at outside
    exact .inl ⟨outside.2.symm, outside.1.symm⟩

/-- **Parts change the forensic records at most, or they are early** and may be kept as pending. -/
theorem processProposalParts_cases {db after : AppDb} {outcome : PartsOutcome}
    (processed : processProposalParts E ctx db parts = some (after, outcome)) :
    (∃ invalid, after = { db with invalidPayloads := invalid }) ∨ ctx.currentHeight ≤ parts.height ∧
        ∃ kept, maybeStorePendingProposal E ctx db parts = some (after, kept) := by
  unfold processProposalParts at processed
  by_cases past : parts.height < ctx.currentHeight
  · rw [if_pos past, Option.some.injEq, Prod.mk.injEq] at processed
    exact .inl ⟨_, processed.1.symm⟩
  by_cases future : ctx.currentHeight < parts.height ∨ ctx.currentRound < parts.round
  · simp only [if_neg past, if_pos future, Option.bind_eq_bind, Option.bind_eq_some_iff,
      Option.some.injEq, Prod.mk.injEq] at processed
    obtain ⟨⟨stored, kept⟩, found, rfl, -⟩ := processed
    exact .inr ⟨not_lt.mp past, kept, found⟩
  simp only [if_neg past, if_neg future, Option.bind_eq_bind, Option.bind_eq_some_iff] at processed
  obtain ⟨expectedProposer, -, checked⟩ := processed
  by_cases valid : validateProposalParts E parts expectedProposer = true
  · rw [if_pos valid] at checked
    cases assembled : assembleBlockFromParts E parts with
    | error error | ok found =>
      simp only [assembled, Option.some.injEq, Prod.mk.injEq] at checked
      exact .inl ⟨_, checked.1.symm⟩
  · rw [if_neg valid, Option.some.injEq, Prod.mk.injEq] at checked
    exact .inl ⟨_, checked.1.symm⟩

theorem processProposalParts_tables {db after : AppDb} {outcome : PartsOutcome}
    (processed : processProposalParts E ctx db parts = some (after, outcome)) :
    (∃ pending invalid, after =
      { db with pendingProposalParts := pending, invalidPayloads := invalid }) ∧
      PendingFrom E (some parts) db after := by
  rcases processProposalParts_cases processed with ⟨invalid, rfl⟩ | ⟨-, kept, stored⟩
  · exact ⟨⟨db.pendingProposalParts, invalid, rfl⟩, fun _ _ found => .inl found⟩
  rcases maybeStorePendingProposal_cases stored with ⟨-, rfl⟩ | ⟨-, -, -, rfl⟩
  · exact ⟨⟨after.pendingProposalParts, after.invalidPayloads, rfl⟩, fun _ _ found => .inl found⟩
  · refine ⟨⟨_, db.invalidPayloads, rfl⟩, fun key found there => ?_⟩
    obtain ⟨here, rfl⟩ | old := Table.get_insert_cases there
    · exact .inr ⟨rfl, here⟩
    · exact .inl old

/-- **The frame of an ingestion**: the decided tables stay, and of the pending parts at most those
that arrived are new. -/
structure IngestFrame (E : Externals) (arrived : Option ProposalParts) (before after : AppDb) :
    Prop where
  decidedBlocks : after.decidedBlocks = before.decidedBlocks
  certificates : after.certificates = before.certificates
  pending : PendingFrom E arrived before after

section Frame

variable {arrived : Option ProposalParts} {before middle after : AppDb} (db : AppDb)
  (block : ConsensusBlock)

theorem SameTables.ingestFrame (same : SameTables before after) :
    IngestFrame E arrived before after where
  decidedBlocks := same.decidedBlocks
  certificates := same.certificates
  pending _ _ found := .inl (same.pendingProposalParts ▸ found)

theorem IngestFrame.refl : IngestFrame E arrived db db :=
  (SameTables.refl db).ingestFrame

theorem IngestFrame.trans (first : IngestFrame E arrived before middle)
    (second : IngestFrame E arrived middle after) : IngestFrame E arrived before after where
  decidedBlocks := second.decidedBlocks.trans first.decidedBlocks
  certificates := second.certificates.trans first.certificates
  pending key parts found := by
    rcases second.pending key parts found with old | new
    · exact first.pending key parts old
    · exact .inr new

theorem ingestFrame_storeUndecidedBlock : IngestFrame E arrived db (storeUndecidedBlock db block) :=
  ⟨rfl, rfl, fun _ _ found => .inl found⟩

theorem ingestFrame_removePendingParts {F : Externals} (parts : ProposalParts) :
    IngestFrame F arrived db (removePendingPartsAndStoreUndecidedBlock E db parts block) :=
  ⟨rfl, rfl, fun _ _ found => .inl (Table.get_of_get_retain found)⟩

end Frame

/-- The parts that arrive with an ingestion. -/
def IngestInput.arrived : IngestInput → Option ProposalParts
  | completeParts _ parts => some parts
  | _ => none

/-- **What an ingestion leaves behind**: the table is settled by the verdict, the engine was asked
exactly when the block is bound, and the other tables keep their rows. -/
structure Settled (engine : Engine) (world : World) (block : ConsensusBlock)
    (previousBlock : Option ExecutionBlock) (writes : Validity → Prop) [DecidablePred writes]
    (after : World) : Prop where
  undecided : after.db.undecidedBlocks = settle world.db.undecidedBlocks block
    (conclusiveVerdict block previousBlock (world.nextAnswer engine block)) writes
  calls : after.calls = if Bound block.executionPayload block.height previousBlock then
      world.calls ++ [(block.executionPayload, world.nextAnswer engine block)]
    else world.calls
  frame : ∀ {E arrived}, IngestFrame E arrived world.db after.db

/-- **An ingestion without a block** asks nothing and leaves the undecided blocks as they are. -/
structure Blockless (E : Externals) (arrived : Option ProposalParts) (world after : World) : Prop where
  undecided : after.db.undecidedBlocks = world.db.undecidedBlocks
  calls : after.calls = world.calls
  frame : IngestFrame E arrived world.db after.db

section Settled

variable {previousBlock : Option ExecutionBlock} {writes : Validity → Prop} [DecidablePred writes]
  {after final : World} {verdict : BlockVerdict}

theorem Settled.of_inconclusive (facts : Established engine world block previousBlock after none) :
    Settled engine world block previousBlock writes after where
  undecided := by
    rw [← facts.validity]
    exact facts.tables.undecidedBlocks
  calls := facts.calls
  frame := facts.tables.ingestFrame

theorem Settled.of_kept (facts : Established engine world block previousBlock after (some verdict))
    (kept : ¬ writes verdict.validity) :
    Settled engine world block previousBlock writes after where
  undecided := by
    simp only [← facts.validity, settle, Option.map_some, if_neg kept]
    exact facts.tables.undecidedBlocks
  calls := facts.calls
  frame := facts.tables.ingestFrame

theorem Settled.of_written
    (facts : Established engine world block previousBlock after (some verdict))
    (written : writes verdict.validity)
    (table : final.db.undecidedBlocks = after.db.undecidedBlocks.insert block.key
      { block with validity := verdict.validity })
    (calls : final.calls = after.calls)
    (frame : ∀ {E arrived}, IngestFrame E arrived after.db final.db) :
    Settled engine world block previousBlock writes final where
  undecided := by
    simp only [← facts.validity, settle, Option.map_some, if_pos written]
    rw [table, facts.tables.undecidedBlocks]
  calls := calls.trans facts.calls
  frame := facts.tables.ingestFrame.trans frame

end Settled

def liveReport (E : Externals) (ctx : HandlerContext) (block : ConsensusBlock) :
    Option Validity → Option ProposedValue
  | none => none
  | some validity =>
    if Storable E block validity then
      some (block.toProposedValueWithValidity
        (validityFor { block with validity := validity } ctx.localTime))
    else none

theorem liveReport_eq_some {verdict : Option Validity} {value : ProposedValue}
    (reported : liveReport E ctx block verdict = some value) :
    ∃ validity, verdict = some validity ∧ value = block.toProposedValueWithValidity
      (validityFor { block with validity := validity } ctx.localTime) := by
  cases verdict with
  | none => cases reported
  | some validity =>
    by_cases storable : Storable E block validity
    · simp only [liveReport, if_pos storable, Option.some.injEq] at reported
      exact ⟨validity, rfl, reported.symm⟩
    · simp only [liveReport, if_neg storable] at reported
      cases reported

theorem mayBeStored_iff (validity : Validity) : { block with validity := validity
    }.mayBeStoredAsUndecided E.canonicalBlockHash = true ↔ Storable E block validity := Iff.rfl

theorem storeLiveBlock_settled : Settled engine world block ctx.previousBlock (Storable E block)
      (storeLiveBlock E engine ctx world block).1 ∧
    (storeLiveBlock E engine ctx world block).2.bind Disposition.reported = liveReport E ctx block
        (conclusiveVerdict block ctx.previousBlock (world.nextAnswer engine block)) := by
  have facts := established engine world block ctx.previousBlock
  unfold storeLiveBlock
  generalize establishBlockValidity engine world block ctx.previousBlock = result at facts ⊢
  obtain ⟨after, verdict⟩ := result
  rw [← facts.validity]
  cases verdict with
  | none => exact ⟨.of_inconclusive facts, rfl⟩
  | some verdict =>
    by_cases storable : Storable E block verdict.validity
    · simp only [mayBeStored_iff, if_pos storable]
      refine ⟨.of_written facts storable rfl rfl (ingestFrame_storeUndecidedBlock _ _), ?_⟩
      simp only [liveReport, Option.map_some, if_pos storable]
      rfl
    · simp only [mayBeStored_iff, if_neg storable]
      refine ⟨.of_kept facts storable, ?_⟩
      simp only [liveReport, Option.map_some, if_neg storable]
      rfl

theorem ingested_completeParts (found : ingested E world (.completeParts ctx parts) = some block) :
    processProposalParts E ctx world.db parts = some (world.db, .block block) := by
  unfold ingested at found
  cases processed : processProposalParts E ctx world.db parts with
  | none => simp [processed] at found
  | some result =>
    obtain ⟨after, outcome⟩ := result
    cases outcome with
    | block same =>
      simp only [processed, Option.some.injEq] at found
      obtain ⟨-, -, rfl, -⟩ := processProposalParts_eq_block_iff.mp processed
      rw [found]
    | _ => simp [processed] at found

theorem handleCompleteParts_settled
    (found : ingested E world (.completeParts ctx parts) = some block) :
    Settled engine world block ctx.previousBlock (Storable E block)
      (handleCompleteParts E engine ctx world parts).1 ∧
    (handleCompleteParts E engine ctx world parts).2.bind Disposition.reported =
      liveReport E ctx block
        (conclusiveVerdict block ctx.previousBlock (world.nextAnswer engine block)) := by
  unfold handleCompleteParts
  rw [ingested_completeParts found]
  exact storeLiveBlock_settled

theorem handleCompleteParts_idle (none : ingested E world (.completeParts ctx parts) = none) :
    Blockless E (some parts) world (handleCompleteParts E engine ctx world parts).1 ∧
      (handleCompleteParts E engine ctx world parts).2.bind Disposition.reported = .none := by
  unfold ingested at none
  unfold handleCompleteParts
  cases processed : processProposalParts E ctx world.db parts with
  | none => exact ⟨⟨rfl, rfl, .refl _⟩, rfl⟩
  | some result =>
    obtain ⟨after, outcome⟩ := result
    obtain ⟨⟨pending, invalid, rfl⟩, arrived⟩ := processProposalParts_tables processed
    cases outcome with
    | block same => simp [processed] at none
    | storedPending =>
      refine ⟨⟨rfl, rfl, rfl, rfl, arrived⟩, ?_⟩
      dsimp only [concludeParts]
      split_ifs <;> rfl
    | _ => exact ⟨⟨rfl, rfl, rfl, rfl, arrived⟩, rfl⟩

/-- The block of pending parts: they come from the selected proposer with its signature. -/
theorem ingested_pendingParts (found : ingested E world (.pendingParts ctx parts) = some block) :
    ∃ expectedProposer, resolveExpectedProposer ctx.validatorSet parts = some expectedProposer ∧
      validateProposalParts E parts expectedProposer = true ∧
      assembleBlockFromParts E parts = .ok block := by
  unfold ingested at found
  cases resolved : resolveExpectedProposer ctx.validatorSet parts with
  | none => simp [resolved] at found
  | some expectedProposer =>
    by_cases valid : validateProposalParts E parts expectedProposer = true
    · simp only [resolved, if_pos valid] at found
      cases assembled : assembleBlockFromParts E parts with
      | error error => simp [assembled, Except.toOption] at found
      | ok same =>
        simp only [assembled, Except.toOption, Option.some.injEq] at found
        exact ⟨expectedProposer, rfl, valid, by rw [found]⟩
    · simp [resolved, valid] at found

theorem processPendingPart_settled (engine : Engine)
    (found : ingested E world (.pendingParts ctx parts) = some block) :
    ∃ after, processPendingPart E engine ctx world parts = some after ∧
      Settled engine world block ctx.previousBlock (fun _ => True) after := by
  obtain ⟨expectedProposer, resolved, valid, assembled⟩ := ingested_pendingParts found
  have facts := established engine world block ctx.previousBlock
  unfold processPendingPart
  simp only [resolved, valid, assembled, Option.bind_eq_bind, Option.bind_some, if_true]
  generalize establishBlockValidity engine world block ctx.previousBlock = result at facts ⊢
  obtain ⟨after, verdict⟩ := result
  cases verdict with
  | none => exact ⟨after, rfl, .of_inconclusive facts⟩
  | some verdict =>
    exact ⟨_, rfl, .of_written facts trivial rfl rfl (ingestFrame_removePendingParts _ _ _)⟩

theorem processPendingPart_idle (engine : Engine)
    (none : ingested E world (.pendingParts ctx parts) = none) :
    Blockless E .none world ((processPendingPart E engine ctx world parts).getD world) := by
  unfold ingested at none
  unfold processPendingPart
  cases resolved : resolveExpectedProposer ctx.validatorSet parts with
  | none => exact ⟨rfl, rfl, .refl _⟩
  | some expectedProposer =>
    by_cases valid : validateProposalParts E parts expectedProposer = true
    · cases assembled : assembleBlockFromParts E parts with
      | error error =>
        simp only [valid, Option.bind_eq_bind, Option.bind_some, if_true]
        exact ⟨rfl, rfl, (sameTables_appendInvalidPayload _ _).ingestFrame⟩
      | ok same => simp [resolved, valid, assembled, Except.toOption] at none
    · simp only [valid, Option.bind_eq_bind, Option.bind_some]
      exact ⟨rfl, rfl, .refl _⟩

/-- The value a synced block is answered with: a row under its key speaks for a bound block. -/
def syncReport (E : Externals) (ctx : HandlerContext) (world : World) (block : ConsensusBlock) :
    Option Validity → Option ProposedValue
  | none => none
  | some validity =>
    if Storable E block validity then
      if Bound block.executionPayload block.height ctx.previousBlock then
        match world.db.undecidedBlocks.get block.key with
        | some existing => some existing.toProposedValue
        | none => some (block.toProposedValueWithValidity validity)
      else some (block.toProposedValueWithValidity validity)
    else none

theorem syncReport_eq_some {verdict : Option Validity} {value : ProposedValue}
    (reported : syncReport E ctx world block verdict = some value) :
    ∃ validity, verdict = some validity ∧ (value = block.toProposedValueWithValidity validity ∨
        ∃ row, world.db.undecidedBlocks.get block.key = some row ∧ value = row.toProposedValue ∧
          Bound block.executionPayload block.height ctx.previousBlock ∧
          Storable E block validity) := by
  cases verdict with
  | none => cases reported
  | some validity =>
    refine ⟨validity, rfl, ?_⟩
    by_cases storable : Storable E block validity
    · by_cases bound : Bound block.executionPayload block.height ctx.previousBlock
      · simp only [syncReport, if_pos storable, if_pos bound] at reported
        cases stored : world.db.undecidedBlocks.get block.key with
        | none =>
          simp only [stored, Option.some.injEq] at reported
          exact .inl reported.symm
        | some row =>
          simp only [stored, Option.some.injEq] at reported
          exact .inr ⟨row, rfl, reported.symm, bound, storable⟩
      · simp only [syncReport, if_pos storable, if_neg bound, Option.some.injEq] at reported
        exact .inl reported.symm
    · simp only [syncReport, if_neg storable] at reported
      cases reported

theorem storeSyncedBlock_settled : Settled engine world block ctx.previousBlock
      (fun validity => Storable E block validity ∧
        (Bound block.executionPayload block.height ctx.previousBlock →
          world.db.undecidedBlocks.get block.key = none))
      (storeSyncedBlock E engine ctx world block).1 ∧
    (storeSyncedBlock E engine ctx world block).2.join = syncReport E ctx world block
        (conclusiveVerdict block ctx.previousBlock (world.nextAnswer engine block)) := by
  have facts := established engine world block ctx.previousBlock
  unfold storeSyncedBlock
  generalize establishBlockValidity engine world block ctx.previousBlock = result at facts ⊢
  obtain ⟨after, verdict⟩ := result
  rw [← facts.validity]
  cases verdict with
  | none => exact ⟨.of_inconclusive facts, rfl⟩
  | some verdict =>
    have sameKey : ∀ validity, ({ block with validity := validity } : ConsensusBlock).key =
      block.key := fun _ => rfl
    have table : after.db.undecidedBlocks = world.db.undecidedBlocks :=
      facts.tables.undecidedBlocks
    by_cases storable : Storable E block verdict.validity
    · simp only [mayBeStored_iff, if_pos storable, sameKey]
      cases verdict with
      | unbound error =>
        have unbound := (facts.rule _ rfl).mp ⟨error, rfl⟩
        refine ⟨.of_written facts ⟨storable, fun bound => absurd bound unbound⟩ rfl rfl
          (ingestFrame_storeUndecidedBlock _ _), ?_⟩
        simp only [syncReport, Option.map_some, if_pos storable, if_neg unbound]
        rfl
      | engine validity =>
        have bound : Bound block.executionPayload block.height ctx.previousBlock := by
          by_contra unbound
          obtain ⟨error, same⟩ := (facts.rule _ rfl).mpr unbound
          cases same
        rw [table]
        cases existing : world.db.undecidedBlocks.get block.key with
        | none =>
          refine ⟨.of_written facts ⟨storable, fun _ => rfl⟩ rfl rfl
            (ingestFrame_storeUndecidedBlock _ _), ?_⟩
          simp only [syncReport, Option.map_some, if_pos storable, if_pos bound, existing]
          rfl
        | some row =>
          have occupied : ¬ (Storable E block validity ∧
              (Bound block.executionPayload block.height ctx.previousBlock → some row = none)) := by
            rintro ⟨-, free⟩
            cases free bound
          refine ⟨.of_kept facts occupied, ?_⟩
          simp only [syncReport, Option.map_some, if_pos storable, if_pos bound, existing]
          rfl
    · simp only [mayBeStored_iff, if_neg storable]
      refine ⟨.of_kept facts fun written => storable written.1, ?_⟩
      simp only [syncReport, Option.map_some, if_neg storable]
      rfl

theorem onProcessSyncedValue_settled {proposer : Address}
    {valueBytes : List Byte}
    (found : ingested E world (.syncedValue ctx height round proposer valueBytes) = some block) :
    Settled engine world block ctx.previousBlock
      (fun validity => Storable E block validity ∧
        (Bound block.executionPayload block.height ctx.previousBlock →
          world.db.undecidedBlocks.get block.key = none))
      (onProcessSyncedValue E engine ctx world height round proposer valueBytes).1 ∧
    (onProcessSyncedValue E engine ctx world height round proposer valueBytes).2.join =
      syncReport E ctx world block
        (conclusiveVerdict block ctx.previousBlock (world.nextAnswer engine block)) := by
  unfold ingested at found
  unfold onProcessSyncedValue
  cases decoded : E.fromSszBytes valueBytes with
  | error error => simp [decoded, Except.toOption] at found
  | ok payload =>
    simp only [decoded, Except.toOption, Option.map_some, Option.some.injEq] at found
    rw [← found]
    exact storeSyncedBlock_settled

theorem onProcessSyncedValue_idle {proposer : Address}
    {valueBytes : List Byte}
    (none : ingested E world (.syncedValue ctx height round proposer valueBytes) = none) :
    Blockless E .none world
        (onProcessSyncedValue E engine ctx world height round proposer valueBytes).1 ∧
      (onProcessSyncedValue E engine ctx world height round proposer valueBytes).2.join =
        .none := by
  unfold ingested at none
  unfold onProcessSyncedValue
  cases decoded : E.fromSszBytes valueBytes with
  | error error => exact ⟨⟨rfl, rfl, (sameTables_appendInvalidPayload _ _).ingestFrame⟩, rfl⟩
  | ok payload => simp [decoded, Except.toOption] at none

/-- A stored block with a new verdict, if there is one. -/
def revalidated (block : ConsensusBlock) (verdict : Option Validity) : ConsensusBlock :=
  { block with validity := verdict.getD block.validity }

theorem validateUndecidedBlock_settled (engine : Engine) (ctx : HandlerContext) (world : World)
    (block : ConsensusBlock) :
    Settled engine world block ctx.previousBlock (fun validity => validity ≠ block.validity)
      (validateUndecidedBlock engine ctx world block).1 ∧
    (validateUndecidedBlock engine ctx world block).2 = revalidated block
      (conclusiveVerdict block ctx.previousBlock (world.nextAnswer engine block)) := by
  have facts := established engine world block ctx.previousBlock
  unfold validateUndecidedBlock
  cases checked : checkPayloadBinding block.executionPayload block.height ctx.previousBlock with
  | ok passed =>
    rw [establishBlockValidity_of_bound checked] at facts
    dsimp only
    generalize validateConsensusBlock engine world block = result at facts ⊢
    obtain ⟨after, verdict⟩ := result
    rw [← facts.validity]
    cases verdict with
    | none => exact ⟨.of_inconclusive facts, rfl⟩
    | some validity =>
      by_cases changed : validity ≠ block.validity
      · simp only [if_pos changed]
        exact ⟨.of_written facts changed rfl rfl (ingestFrame_storeUndecidedBlock _ _), rfl⟩
      · simp only [if_neg changed]
        refine ⟨.of_kept facts changed, ?_⟩
        show block = revalidated block (some validity)
        rw [revalidated, Option.getD_some, not_not.mp changed]
  | error error =>
    have unbound : ¬ Bound block.executionPayload block.height ctx.previousBlock := by
      intro bound
      rw [Bound, checked] at bound
      cases bound
    have judged : conclusiveVerdict block ctx.previousBlock (world.nextAnswer engine block) =
        some .invalid := if_neg unbound
    unfold establishBlockValidity at facts
    rw [checked] at facts
    rw [judged]
    cases stored : block.validity with
    | valid =>
      refine ⟨.of_written facts ?_ rfl rfl (ingestFrame_storeUndecidedBlock _ _), rfl⟩
      simp [BlockVerdict.validity]
    | invalid =>
      refine ⟨⟨?_, (if_neg unbound).symm, .refl _⟩, ?_⟩
      · simp only [judged, settle]
        rfl
      · show block = _
        rw [revalidated, Option.getD_some, ← stored]

end Paths

/-! ### One step -/

section Step

variable {E : Externals} {engine : Engine} {world : World} {block : ConsensusBlock}
  {input : IngestInput}

/-- What an ingestion reports, given the verdict it obtained. -/
def IngestInput.report (E : Externals) (world : World) (block : ConsensusBlock) :
    IngestInput → Option Validity → Option ProposedValue
  | completeParts ctx _ => liveReport E ctx block
  | pendingParts _ _ => fun _ => none
  | syncedValue ctx _ _ _ _ => syncReport E ctx world block
  | undecidedBlock ctx _ => fun verdict =>
    some ((revalidated block verdict).toProposedValueWithValidity
      (validityFor (revalidated block verdict) ctx.localTime))

/-- **One ingestion of a block**: the table is settled by the verdict, the engine is asked exactly
when the block is bound, and the report is that of the path. -/
theorem ingestStep_settled (found : ingested E world input = some block) :
    Settled engine world block input.ctx.previousBlock (fun validity =>
        input.writes E world block validity) (ingestStep E engine world input).1 ∧
      (ingestStep E engine world input).2 =
        input.report E world block (input.verdict engine world block) := by
  cases input with
  | completeParts ctx parts => exact handleCompleteParts_settled found
  | pendingParts ctx parts =>
    obtain ⟨after, processed, settled⟩ := processPendingPart_settled engine found
    refine ⟨?_, rfl⟩
    show Settled engine world block ctx.previousBlock _
      ((processPendingPart E engine ctx world parts).getD world)
    rw [processed]
    exact settled
  | syncedValue ctx height round proposer valueBytes => exact onProcessSyncedValue_settled found
  | undecidedBlock ctx key =>
    have row : world.db.undecidedBlocks.get key = some block := found
    obtain ⟨settled, validated⟩ := validateUndecidedBlock_settled engine ctx world block
    simp only [ingestStep, row]
    refine ⟨settled, ?_⟩
    rw [validated]
    rfl

theorem ingestStep_idle (none : ingested E world input = none) :
    Blockless E input.arrived world (ingestStep E engine world input).1 ∧
      (ingestStep E engine world input).2 = .none := by
  cases input with
  | completeParts ctx parts => exact handleCompleteParts_idle none
  | pendingParts ctx parts => exact ⟨processPendingPart_idle engine none, rfl⟩
  | syncedValue ctx height round proposer valueBytes => exact onProcessSyncedValue_idle none
  | undecidedBlock ctx key =>
    have row : world.db.undecidedBlocks.get key = .none := none
    simp only [ingestStep, row, and_true]
    exact ⟨rfl, rfl, .refl _⟩

theorem ingestFrame_ingestStep (input : IngestInput) :
    IngestFrame E input.arrived world.db (ingestStep E engine world input).1.db := by
  cases found : ingested E world input with
  | none => exact (ingestStep_idle found).1.frame
  | some block => exact (ingestStep_settled found).1.frame

end Step

/-! ### A round start is a run -/

def Keyed (db : AppDb) : Prop :=
  ∀ key block, db.undecidedBlocks.get key = some block → block.key = key

theorem keyed_settle {db after : AppDb} {block : ConsensusBlock} {verdict : Option Validity}
    {writes : Validity → Prop} [DecidablePred writes] (keyed : Keyed db)
    (settled : after.undecidedBlocks = settle db.undecidedBlocks block verdict writes) :
    Keyed after := by
  intro key row found
  rw [settled] at found
  rcases settle_cases found with old | ⟨same, validity, -, -, new⟩
  · exact keyed key row old
  · rw [new, same]
    rfl

section Runs

variable {E : Externals} {engine : Engine} {ctx : HandlerContext} {world : World}

theorem keyed_ingestStep (keyed : Keyed world.db) (input : IngestInput) :
    Keyed (ingestStep E engine world input).1.db := by
  cases found : ingested E world input with
  | none =>
    intro key row there
    rw [(ingestStep_idle found).1.undecided] at there
    exact keyed key row there
  | some block => exact keyed_settle keyed (ingestStep_settled found).1.undecided

theorem processPendingProposalParts_eq_run {pending : List ProposalParts} {after : World}
    (processed : processPendingProposalParts E engine ctx world pending = some after) :
    after = run (ingestStep E engine) world (pending.map (.pendingParts ctx)) ∧
      (outputs (ingestStep E engine) world (pending.map (.pendingParts ctx))).filterMap id = [] := by
  unfold processPendingProposalParts at processed
  induction pending generalizing world with
  | nil => exact ⟨(Option.some.inj processed).symm, rfl⟩
  | cons parts rest ih =>
    rw [List.foldlM_cons, Option.bind_eq_bind, Option.bind_eq_some_iff] at processed
    obtain ⟨middle, first, later⟩ := processed
    have turn : ingestStep E engine world (.pendingParts ctx parts) = (middle, none) := by
      simp only [ingestStep, first, Option.getD_some]
    obtain ⟨same, silent⟩ := ih later
    rw [List.map_cons, run, outputs, turn]
    exact ⟨same, silent⟩

/-- The blocks are read before the loop, but a turn changes only the row of its own block. -/
theorem validateUndecidedBlocks_eq_run (E : Externals) (engine : Engine) (ctx : HandlerContext)
    {rows : List (BlockKey × ConsensusBlock)}
    (distinct : (rows.map Prod.fst).Nodup)
    (current : ∀ row ∈ rows, world.db.undecidedBlocks.get row.1 = some row.2 ∧ row.2.key = row.1) :
    (validateUndecidedBlocks engine ctx world (rows.map Prod.snd)).1 =
        run (ingestStep E engine) world (rows.map fun row => .undecidedBlock ctx row.1) ∧
      (outputs (ingestStep E engine) world
          (rows.map fun row => .undecidedBlock ctx row.1)).filterMap id =
        (validateUndecidedBlocks engine ctx world (rows.map Prod.snd)).2.map fun block =>
          block.toProposedValueWithValidity (validityFor block ctx.localTime) := by
  induction rows generalizing world with
  | nil => exact ⟨rfl, rfl⟩
  | cons row rest ih =>
    obtain ⟨key, block⟩ := row
    rw [List.map_cons, List.nodup_cons] at distinct
    obtain ⟨found, sameKey⟩ := current _ List.mem_cons_self
    have settled := (validateUndecidedBlock_settled engine ctx world block).1
    obtain ⟨after, validated, turn⟩ : ∃ after validated,
      validateUndecidedBlock engine ctx world block = (after, validated) := ⟨_, _, rfl⟩
    rw [turn] at settled
    have later : ∀ row ∈ rest, after.db.undecidedBlocks.get row.1 = some row.2 ∧
        row.2.key = row.1 := by
      intro row there
      obtain ⟨still, own⟩ := current row (List.mem_cons_of_mem _ there)
      have other : row.1 ≠ block.key := by
        intro same
        rw [sameKey] at same
        exact distinct.1 (same ▸ List.mem_map_of_mem there)
      rw [settled.undecided, settle_get_of_ne other]
      exact ⟨still, own⟩
    obtain ⟨worlds, reports⟩ := ih distinct.2 later
    have step : ingestStep E engine world (.undecidedBlock ctx key) =
        (after, some (validated.toProposedValueWithValidity
          (validityFor validated ctx.localTime))) := by
      simp only [ingestStep, found, turn]
    simp only [List.map_cons, validateUndecidedBlocks, run, outputs, turn, step]
    exact ⟨worlds, congrArg (List.cons _) reports⟩

theorem undecidedRows_sublist (db : AppDb) (height : Height) (round : Round) :
    ((undecidedRows db height round).getD []).Sublist db.undecidedBlocks.entries := by
  unfold undecidedRows
  cases Round.ofI64 (round.asI64 + 1) with
  | none => exact List.nil_sublist _
  | some next => exact List.filter_sublist.trans List.filter_sublist

theorem getD_getUndecidedBlocks (db : AppDb) (height : Height) (round : Round) :
    (getUndecidedBlocks db height round).getD [] =
      ((undecidedRows db height round).getD []).map Prod.snd := by
  unfold getUndecidedBlocks
  cases undecidedRows db height round <;> rfl

/-- **The two loops of a round start are a run of single ingestions**, over whatever pending parts
and over whatever rows. -/
theorem roundLoops_eq_run {pending : List ProposalParts}
    {processed : World} (keyed : Keyed world.db)
    (ran : processPendingProposalParts E engine ctx world pending = some processed)
    {rows : List (BlockKey × ConsensusBlock)}
    (some : rows.Sublist processed.db.undecidedBlocks.entries) :
    ∃ inputs : List IngestInput, (∀ input ∈ inputs,
        (∃ parts ∈ pending, input = .pendingParts ctx parts) ∨
          ∃ key, input = .undecidedBlock ctx key) ∧
      (validateUndecidedBlocks engine ctx processed (rows.map Prod.snd)).1 =
        run (ingestStep E engine) world inputs ∧
      (outputs (ingestStep E engine) world inputs).filterMap id =
        (validateUndecidedBlocks engine ctx processed (rows.map Prod.snd)).2.map fun block =>
          block.toProposedValueWithValidity (validityFor block ctx.localTime) := by
  obtain ⟨worlds, silent⟩ := processPendingProposalParts_eq_run ran
  have keyedThen : Keyed processed.db := by
    have kept : ∀ (state : World) (input : IngestInput), Keyed state.db →
        Keyed (ingestStep E engine state input).1.db :=
      fun _ input rows => keyed_ingestStep rows input
    rw [worlds]
    exact run_kept kept _ keyed
  have distinct : (rows.map Prod.fst).Nodup :=
    processed.db.undecidedBlocks.keys_nodup.sublist
      (some.map Prod.fst)
  have current : ∀ row ∈ rows,
      processed.db.undecidedBlocks.get row.1 = .some row.2 ∧ row.2.key = row.1 := by
    intro row there
    have found := Table.get_eq_some.mpr (some.subset there)
    exact ⟨found, keyedThen _ _ found⟩
  obtain ⟨final, reports⟩ := validateUndecidedBlocks_eq_run E engine ctx distinct current
  refine ⟨pending.map (.pendingParts ctx) ++ rows.map fun row => .undecidedBlock ctx row.1,
    ?_, ?_, ?_⟩
  · intro input there
    rcases List.mem_append.mp there with first | second
    · obtain ⟨parts, member, rfl⟩ := List.mem_map.mp first
      exact .inl ⟨parts, member, rfl⟩
    · obtain ⟨row, -, rfl⟩ := List.mem_map.mp second
      exact .inr ⟨row.1, rfl⟩
  · rw [run_append, ← worlds, ← final]
  · rw [outputs_append, List.filterMap_append, silent, ← worlds, reports, List.nil_append]

/-- **The start of a round is a run of single ingestions**, and it reports what they report. -/
theorem fetchAndProcessPendingProposals_eq_run {after : World}
    {values : List ProposedValue} (keyed : Keyed world.db)
    (fetched : fetchAndProcessPendingProposals E engine ctx world height round =
      some (after, values)) :
    ∃ inputs : List IngestInput, (∀ input ∈ inputs,
        (∃ parts ∈ getPendingProposalParts world.db height round,
          input = .pendingParts ctx parts) ∨ ∃ key, input = .undecidedBlock ctx key) ∧
      after = run (ingestStep E engine) world inputs ∧
      values = (outputs (ingestStep E engine) world inputs).filterMap id := by
  unfold fetchAndProcessPendingProposals at fetched
  simp only [Option.bind_eq_bind, Option.bind_eq_some_iff, Option.some.injEq,
    Prod.mk.injEq] at fetched
  obtain ⟨processed, pending, same, reported⟩ := fetched
  rw [getD_getUndecidedBlocks] at same reported
  obtain ⟨inputs, kinds, final, reports⟩ := roundLoops_eq_run keyed pending
    (undecidedRows_sublist processed.db height round)
  exact ⟨inputs, kinds, same.symm.trans final, reported.symm.trans reports.symm⟩

end Runs

/-! ### The scan of a round -/

section Scan

variable (db : AppDb) (height : Height) (round : Round)

/-- **The scan reads the rows of its height and round**; its range is as good as the whole table. -/
theorem undecidedRows_eq : undecidedRows db height round =
    if round.asI64 + 1 < 2 ^ 32 then some (db.undecidedBlocks.entries.filter fun entry =>
      entry.1.height = height ∧ entry.1.round = round) else none := by
  unfold undecidedRows
  split_ifs with fits
  · obtain ⟨next, read⟩ : ∃ next, Round.ofI64 (round.asI64 + 1) = some next := by
      refine Option.ne_none_iff_exists'.mp fun failed => ?_
      exact absurd (Round.ofI64_eq_none.mp failed) (not_le.mpr fits)
    have low : -1 ≤ round.asI64 := Round.nil_le round
    have later : round < next := by
      show round.asI64 < next.asI64
      rw [Round.asI64_of_ofI64 (by omega) read]
      exact lt_add_one _
    rw [read]
    refine congrArg some ?_
    rw [List.filter_filter]
    refine List.filter_congr fun entry _ => ?_
    simp only [← not_lt, BlockKey.lt_def, Fin.not_lt_zero]
    grind
  · rw [Round.ofI64_eq_none.mpr (not_lt.mp fits)]
    rfl

/-- **The scan fails in the last round**, and in no other. -/
theorem getUndecidedBlocks_eq_none :
    getUndecidedBlocks db height round = none ↔ 2 ^ 32 ≤ round.asI64 + 1 := by
  unfold getUndecidedBlocks
  rw [Option.map_eq_none_iff, undecidedRows_eq]
  split_ifs <;> simp only [false_iff, true_iff] <;> omega

theorem mem_getUndecidedBlocks {db : AppDb} {height : Height} {round : Round}
    {blocks : List ConsensusBlock} (read : getUndecidedBlocks db height round = some blocks)
    {block : ConsensusBlock} : block ∈ blocks ↔
      ∃ key, db.undecidedBlocks.get key = some block ∧ key.height = height ∧ key.round = round := by
  unfold getUndecidedBlocks at read
  rw [undecidedRows_eq] at read
  obtain ⟨rows, scanned, rfl⟩ := Option.map_eq_some_iff.mp read
  split_ifs at scanned
  rw [← Option.some.inj scanned]
  simp only [List.mem_map, List.mem_filter, decide_eq_true_eq, Table.get_eq_some, Prod.exists]
  exact ⟨fun ⟨key, row, there, same⟩ => ⟨key, same ▸ there⟩, fun ⟨key, there⟩ => ⟨key, block, there, rfl⟩⟩

/-- **The scan of a round agrees with the reads of single keys.** It fails in the last round and in
no other; where it answers, a block is in the answer exactly if some hash has it in this height and
round. -/
theorem scan_agrees_with_reads :
    (getUndecidedBlocks db height round = none ↔ round = .some (Fin.ofNat _ (2 ^ 32 - 1))) ∧
      ∀ blocks ∈ getUndecidedBlocks db height round, ∀ block,
        block ∈ blocks ↔ ∃ hash, db.undecidedBlocks.get ⟨height, round, hash⟩ = some block := by
  constructor
  · have last : (Round.some (Fin.ofNat _ (2 ^ 32 - 1))).asI64 = 2 ^ 32 - 1 := rfl
    have below := round.asI64_lt
    rw [getUndecidedBlocks_eq_none, ← Round.asI64_injective.eq_iff, last]
    omega
  · intro blocks read block
    rw [mem_getUndecidedBlocks read]
    constructor
    · rintro ⟨key, found, rfl, rfl⟩
      exact ⟨key.hash, found⟩
    · rintro ⟨hash, found⟩
      exact ⟨_, found, rfl, rfl⟩

end Scan

end ArcNode.App
