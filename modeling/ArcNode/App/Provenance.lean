/-
**Where the rows of the undecided table come from.**

A row stands under its own key and belongs to the proposer of its round. A signed row of the node
itself is one the node has streamed: only the node can sign for it, so parts that verify under its
key come from a stream of its own (`Genuine`), and synced values come without a signature.
`Provenance` says this of a whole database. Every ingestion keeps it and keeps the rows that are
there (**`provenance_ingestStep`**), and so do the handlers that ingest
(**`provenance_startedRound`**).
-/

import ArcNode.App.NodeSteps

namespace ArcNode.App

open ArcNode.Lib ArcNode.Types ArcNode.Store

/-! ### Rows and their proposers -/

section Statement

variable (E : Externals) (validators : Height → ValidatorSet) (own : Address)
  (published : List ConsensusBlock)

/-- The proposer of a round, among the validators of its height. -/
def electedAt (height : Height) (round : Round) : Option Address :=
  (selectProposer (validators height) height round).map Validator.address

/-- The node has streamed a block of its own with this height, round and hash. -/
def Streamed (key : BlockKey) : Prop :=
  ∃ earlier ∈ published, earlier.proposer = own ∧ earlier.key = key
  deriving Decidable

/-- **Parts that verify under the node's own key carry a block it has streamed.** -/
def Genuine (parts : ProposalParts) : Prop :=
  ∀ validator ∈ validators parts.height, validator.address = own →
    validateProposalParts E parts validator = true →
    ∀ block ∈ (assembleBlockFromParts E parts).toOption, Streamed own published block.key
  deriving Decidable

/-- **Every row is accounted for**, and so are the pending parts. -/
structure Provenance (db : AppDb) : Prop where
  keyed : Keyed db
  elected : ∀ key row, db.undecidedBlocks.get key = some row →
    electedAt validators key.height key.round = some row.proposer
  signed : ∀ key row, db.undecidedBlocks.get key = some row → row.proposer = own →
    row.signature.isSome = true → Streamed own published key
  pending : ∀ key parts, db.pendingProposalParts.get key = some parts →
    parts.pendingKey E.keccak = key ∧ Genuine E validators own published parts

/-- The inputs of an ingestion are as the environment gives them: the validators are those of the
height, parts are genuine, and a synced value comes with the proposer of its round. -/
def Admissible : IngestInput → Prop
  | .completeParts ctx parts =>
    ctx.validatorSet = validators ctx.currentHeight ∧ Genuine E validators own published parts
  | .pendingParts ctx parts =>
    ctx.validatorSet = validators parts.height ∧ Genuine E validators own published parts
  | .syncedValue _ height round proposer _ => electedAt validators height round = some proposer
  | .undecidedBlock _ _ => True

end Statement

section Grow

variable {E : Externals} {validators : Height → ValidatorSet} {own : Address}
  {published more : List ConsensusBlock} {db : AppDb}

theorem Streamed.mono (grows : published ⊆ more) {key : BlockKey}
    (streamed : Streamed own published key) : Streamed own more key := by
  obtain ⟨earlier, member, facts⟩ := streamed
  exact ⟨earlier, grows member, facts⟩

theorem Genuine.mono (grows : published ⊆ more) {parts : ProposalParts}
    (genuine : Genuine E validators own published parts) : Genuine E validators own more parts :=
  fun validator member ours valid block found =>
    (genuine validator member ours valid block found).mono grows

theorem Provenance.mono (grows : published ⊆ more)
    (rows : Provenance E validators own published db) : Provenance E validators own more db where
  keyed := rows.keyed
  elected := rows.elected
  signed key row found ours signed := (rows.signed key row found ours signed).mono grows
  pending key parts found :=
    ⟨(rows.pending key parts found).1, (rows.pending key parts found).2.mono grows⟩

theorem provenance_empty (E : Externals) (validators : Height → ValidatorSet) (own : Address)
    (published : List ConsensusBlock) : Provenance E validators own published ∅ := by
  refine ⟨?_, ?_, ?_, ?_⟩ <;> (intro key row found; cases found)

end Grow

def RowsKept (before after : AppDb) : Prop :=
  ∀ key, (before.undecidedBlocks.get key).isSome = true →
    (after.undecidedBlocks.get key).isSome = true

theorem RowsKept.of_eq {before after : AppDb}
    (same : after.undecidedBlocks = before.undecidedBlocks) : RowsKept before after :=
  fun _ there => same ▸ there

theorem RowsKept.trans {before middle after : AppDb} (first : RowsKept before middle)
    (second : RowsKept middle after) : RowsKept before after :=
  fun key there => second key (first key there)

theorem rowsKept_settle {before after : AppDb} {block : ConsensusBlock}
    {verdict : Option Validity} {writes : Validity → Prop} [DecidablePred writes]
    (settled : after.undecidedBlocks = settle before.undecidedBlocks block verdict writes) :
    RowsKept before after := by
  intro key there
  rw [settled]
  unfold settle
  cases verdict with
  | none => exact there
  | some validity =>
    dsimp only
    split_ifs
    · rw [Table.get_insert]
      split_ifs
      · rfl
      · exact there
    · exact there

/-! ### One ingestion -/

variable {input : IngestInput}

section Ingestion

variable {E : Externals} {engine : Engine} {validators : Height → ValidatorSet} {own : Address}
  {published : List ConsensusBlock} {world : World} {block : ConsensusBlock}
  {parts : ProposalParts}

/-- **A block may enter the table**: it belongs to the proposer of its round, and if it is the
node's own and signed then it was streamed. -/
structure Accountable (validators : Height → ValidatorSet) (own : Address)
    (published : List ConsensusBlock) (block : ConsensusBlock) : Prop where
  elected : electedAt validators block.height block.round = some block.proposer
  signed : block.proposer = own → block.signature.isSome = true → Streamed own published block.key

theorem accountable_of_parts (genuine : Genuine E validators own published parts)
    {expected : Validator}
    (resolved : resolveExpectedProposer (validators parts.height) parts = some expected)
    (valid : validateProposalParts E parts expected = true)
    (assembled : assembleBlockFromParts E parts = .ok block) :
    Accountable validators own published block := by
  obtain ⟨height, round, proposer, -⟩ := assembleBlockFromParts_ok assembled
  have address : expected.address = parts.proposer := by
    unfold validateProposalParts at valid
    rw [Bool.and_eq_true, decide_eq_true_eq] at valid
    exact valid.1
  have chosen : selectProposer (validators parts.height) parts.height parts.round =
      some expected := resolved
  refine ⟨?_, fun ours _ => ?_⟩
  · rw [electedAt, height, round, chosen, Option.map_some, address, proposer]
  · refine genuine expected (selectProposer_mem chosen) ?_ valid block ?_
    · rw [address, ← proposer, ours]
    · rw [assembled]
      rfl

theorem accountable_ingested (rows : Provenance E validators own published world.db)
    (admissible : Admissible E validators own published input)
    (found : ingested E world input = some block) : Accountable validators own published block := by
  cases input with
  | completeParts ctx parts =>
    obtain ⟨known, genuine⟩ := admissible
    obtain ⟨here, -, -, expected, resolved, valid, assembled⟩ :=
      processProposalParts_eq_block_iff.mp (ingested_completeParts found)
    rw [known, ← here] at resolved
    exact accountable_of_parts genuine resolved valid assembled
  | pendingParts ctx parts =>
    obtain ⟨known, genuine⟩ := admissible
    obtain ⟨expected, resolved, valid, assembled⟩ := ingested_pendingParts found
    rw [known] at resolved
    exact accountable_of_parts genuine resolved valid assembled
  | syncedValue ctx height round proposer valueBytes =>
    obtain ⟨payload, -, rfl⟩ := Option.map_eq_some_iff.mp found
    exact ⟨admissible, fun _ signed => by cases signed⟩
  | undecidedBlock ctx key =>
    have row : world.db.undecidedBlocks.get key = some block := found
    have same := rows.keyed key block row
    refine ⟨?_, fun ours signed => ?_⟩
    · have elected := rows.elected key block row
      rwa [← same] at elected
    · rw [same]
      exact rows.signed key block row ours signed

theorem provenance_settle (rows : Provenance E validators own published world.db)
    (accountable : Accountable validators own published block) {after : AppDb}
    {verdict : Option Validity} {writes : Validity → Prop} [DecidablePred writes]
    (settled : after.undecidedBlocks = settle world.db.undecidedBlocks block verdict writes)
    (pending : ∀ key parts, after.pendingProposalParts.get key = some parts →
      parts.pendingKey E.keccak = key ∧ Genuine E validators own published parts) :
    Provenance E validators own published after := by
  refine ⟨keyed_settle rows.keyed settled, fun key row found => ?_, fun key row found => ?_, pending⟩
  all_goals
    rw [settled] at found
    rcases settle_cases found with old | ⟨rfl, validity, -, -, rfl⟩
  · exact rows.elected key row old
  · exact accountable.elected
  · exact rows.signed key row old
  · exact accountable.signed

theorem pending_ingestStep (engine : Engine) (rows : Provenance E validators own published world.db)
    (admissible : Admissible E validators own published input) :
    ∀ key parts, (ingestStep E engine world input).1.db.pendingProposalParts.get key = some parts →
      parts.pendingKey E.keccak = key ∧ Genuine E validators own published parts := by
  intro key parts found
  rcases (ingestFrame_ingestStep input).pending key parts found with old | ⟨new, same⟩
  · exact rows.pending key parts old
  · cases input with
    | completeParts ctx arrived =>
      obtain rfl := Option.some.inj new
      exact ⟨same.symm, admissible.2⟩
    | _ => cases new

theorem provenance_ingestStep (engine : Engine) (input : IngestInput)
    (rows : Provenance E validators own published world.db)
    (admissible : Admissible E validators own published input) :
    Provenance E validators own published (ingestStep E engine world input).1.db ∧
      RowsKept world.db (ingestStep E engine world input).1.db := by
  have pending := pending_ingestStep engine rows admissible
  cases found : ingested E world input with
  | none =>
    have same : (ingestStep E engine world input).1.db.undecidedBlocks = world.db.undecidedBlocks :=
      (ingestStep_idle found).1.undecided
    refine ⟨⟨?_, ?_, ?_, pending⟩, .of_eq same⟩
    · exact keyed_ingestStep rows.keyed input
    · rw [same]
      exact rows.elected
    · rw [same]
      exact rows.signed
  | some block =>
    obtain ⟨settled, -⟩ := @ingestStep_settled E engine world block input found
    exact ⟨provenance_settle rows (accountable_ingested rows admissible found) settled.undecided
      pending, rowsKept_settle settled.undecided⟩

theorem provenance_run (engine : Engine) {inputs : List IngestInput}
    (rows : Provenance E validators own published world.db)
    (admissible : ∀ input ∈ inputs, Admissible E validators own published input) :
    Provenance E validators own published (run (ingestStep E engine) world inputs).db ∧
      RowsKept world.db (run (ingestStep E engine) world inputs).db := by
  induction inputs generalizing world with
  | nil => exact ⟨rows, .of_eq rfl⟩
  | cons input rest ih =>
    obtain ⟨here, kept⟩ := provenance_ingestStep engine input rows
      (admissible input List.mem_cons_self)
    obtain ⟨final, still⟩ := ih here fun other member =>
      admissible other (List.mem_cons_of_mem _ member)
    exact ⟨final, kept.trans still⟩

end Ingestion

/-! ### The handlers that ingest -/

section Handlers

variable {E : Externals} {engine : Engine} {validators : Height → ValidatorSet} {own : Address}
  {published : List ConsensusBlock} {world : World} {config : NodeConfig} {state : State}

variable {height : Height} {round : Round}

theorem enterRound_height {entered : State}
    (enters : enterRound state height round = some entered) : height = state.currentHeight := by
  unfold enterRound at enters
  by_cases first : round.asI64 = 0
  · simp only [if_pos first] at enters
    split_ifs at enters with checked
    exact checked.1.symm
  · simp only [if_neg first] at enters
    split_ifs at enters with checked
    exact checked.1.symm

variable (rows : Provenance E validators own published world.db)

include rows

theorem height_of_mem_pending {parts : ProposalParts}
    (member : parts ∈ getPendingProposalParts world.db height round) :
    parts.height = height ∧ Genuine E validators own published parts := by
  obtain ⟨entry, kept, rfl⟩ := List.mem_map.mp member
  obtain ⟨there, chosen⟩ := List.mem_filter.mp kept
  obtain ⟨same, genuine⟩ := rows.pending entry.1 entry.2 (Table.get_eq_some.mpr there)
  refine ⟨?_, genuine⟩
  have height : (entry.2.pendingKey E.keccak).height = height := by
    rw [same]
    exact (of_decide_eq_true chosen).1
  exact height

theorem admissible_roundTurns {ctx : HandlerContext}
    (known : ctx.validatorSet = validators height) {pending : List ProposalParts}
    (some : ∀ parts ∈ pending, parts ∈ getPendingProposalParts world.db height round)
    (turn : (∃ parts ∈ pending, input = .pendingParts ctx parts) ∨
      ∃ key, input = .undecidedBlock ctx key) : Admissible E validators own published input := by
  rcases turn with ⟨parts, member, rfl⟩ | ⟨key, rfl⟩
  · obtain ⟨here, genuine⟩ := height_of_mem_pending rows (some parts member)
    exact ⟨here ▸ known, genuine⟩
  · trivial

theorem provenance_startedRound (known : state.validatorSet = validators state.currentHeight)
    (height : Height) (round : Round)
    (localTime : Option (Fin (2 ^ 64))) :
    Provenance E validators own published
        (startedRound E engine config world state height round localTime).1.db ∧
      RowsKept world.db (startedRound E engine config world state height round localTime).1.db := by
  unfold startedRound
  cases enters : enterRound state height round with
  | none => exact ⟨rows, .of_eq rfl⟩
  | some entered =>
    dsimp only
    cases fetched : fetchAndProcessPendingProposals E engine (entered.context config localTime) world
        height round with
    | none => exact ⟨rows, .of_eq rfl⟩
    | some result =>
      obtain ⟨after, values⟩ := result
      obtain ⟨inputs, turns, same, -⟩ := fetchAndProcessPendingProposals_eq_run rows.keyed fetched
      have here : (entered.context config localTime).validatorSet = validators height := by
        show entered.validatorSet = _
        rw [(samePosition_enterRound enters).validatorSet, known, enterRound_height enters]
      dsimp only
      rw [same]
      exact provenance_run engine rows fun input member =>
        admissible_roundTurns rows here (fun _ there => there) (turns input member)

theorem provenance_interruptedRound (known : state.validatorSet = validators state.currentHeight)
    (height : Height) (round : Round)
    (turns : ℕ) :
    Provenance E validators own published
        (interruptedRound E engine config world state height round turns).db ∧
      RowsKept world.db (interruptedRound E engine config world state height round turns).db := by
  unfold interruptedRound
  cases enters : enterRound state height round with
  | none => exact ⟨rows, .of_eq rfl⟩
  | some entered =>
    dsimp only
    cases processed : processPendingProposalParts E engine (entered.context config none) world
        ((getPendingProposalParts world.db height round).take turns) with
    | none => exact ⟨rows, .of_eq rfl⟩
    | some after =>
      have here : (entered.context config none).validatorSet = validators height := by
        show entered.validatorSet = _
        rw [(samePosition_enterRound enters).validatorSet, known, enterRound_height enters]
      obtain ⟨inputs, kinds, same, -⟩ := roundLoops_eq_run rows.keyed processed
        ((List.take_sublist (turns - (getPendingProposalParts world.db height round).length) _).trans
          (undecidedRows_sublist after.db height round))
      rw [List.map_take, ← getD_getUndecidedBlocks] at same
      dsimp only
      rw [same]
      exact provenance_run engine rows fun input member =>
        admissible_roundTurns rows here (fun _ there => List.mem_of_mem_take there)
          (kinds input member)

theorem provenance_onReceivedProposalPart {ctx : HandlerContext}
    (known : ctx.validatorSet = validators ctx.currentHeight)
    {streams : PartStreamsMap} {delivery : Delivery}
    (genuine : ∀ parts ∈ (receive streams delivery).2.completed,
      Genuine E validators own published parts) :
    Provenance E validators own published
        (onReceivedProposalPart E engine ctx streams world delivery).2.1.db ∧
      RowsKept world.db (onReceivedProposalPart E engine ctx streams world delivery).2.1.db := by
  unfold onReceivedProposalPart
  generalize receive streams delivery = result at genuine
  obtain ⟨inserted, outcome⟩ := result
  cases outcome with
  | complete parts =>
    exact provenance_ingestStep engine (.completeParts ctx parts) rows ⟨known, genuine parts rfl⟩
  | _ => exact ⟨rows, .of_eq rfl⟩

theorem provenance_onProcessSyncedValue (ctx : HandlerContext)
    {proposer : Address}
    (elected : electedAt validators height round = some proposer) (valueBytes : List Byte) :
    Provenance E validators own published
        (onProcessSyncedValue E engine ctx world height round proposer valueBytes).1.db ∧
      RowsKept world.db
        (onProcessSyncedValue E engine ctx world height round proposer valueBytes).1.db :=
  provenance_ingestStep engine (.syncedValue ctx height round proposer valueBytes) rows elected

end Handlers

end ArcNode.App
