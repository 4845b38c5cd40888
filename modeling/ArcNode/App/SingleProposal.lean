/-
**A proposer streams one block per round.**

Asked for a value again, a node must stream the block it streamed before. It finds that block as its
own row of the round: a block is stored before it is streamed, the row of a live height stays
(`SoleInv.held`), and a signed row of the node itself is one it has prepared (`Provenance.signed`).
Two things take a row away while the height can still be asked for: the restart of a height after a
failed decision, and a certificate that is pruned by its own commit. Without them no round gets a
second block (**`streams_one_block_per_round`**); `restarted_height_gets_second_block` is a run with
the first.
-/

import ArcNode.App.Proposing
import ArcNode.App.Provenance
import ArcNode.App.DecidedChain

namespace ArcNode.App

open ArcNode.Lib ArcNode.Types ArcNode.Store

/-! ### The memory -/

/-- The blocks the node has signed and stored to be streamed. -/
structure Proposals where
  all : List ConsensusBlock
  /-- Those whose height has not been restarted since. -/
  live : List ConsensusBlock

/-- Up to which height a step drops rows for a restart. -/
def restartedUpTo (node : Node) : NodeInput → Option Height
  | .finalized certificate _ => node.state.bind fun state =>
    if state.decision = some .failure then some certificate.height else none
  | _ => none

section Memory

variable (E : Externals) (engine : Engine) (signBytes : BlockHash → Option Signature)
  (config : NodeConfig)

/-- The block a step prepares; a crash comes after the block is stored. -/
def preparedBlock (node : Node) : NodeInput → Option ConsensusBlock
  | .crashInGetValue height round answer => node.state.bind fun state => streamedBlock E
    (getValue E engine signBytes config node.world state height round answer).2.2
  | input => streamedBlock E (nodeStep E engine signBytes config node input).2

def noteProposals (seen : Proposals) (node : Node) (input : NodeInput)
    (_ : Node × List StreamMessage) : Proposals where
  all := seen.all ++ (preparedBlock E engine signBytes config node input).toList
  live := (match restartedUpTo node input with
      | none => seen.live
      | some height => seen.live.filter fun block => height < block.height) ++
    (preparedBlock E engine signBytes config node input).toList

def proposingStep : Node × Proposals → NodeInput → (Node × Proposals) × List StreamMessage :=
  remembering (nodeStep E engine signBytes config) (noteProposals E engine signBytes config)

end Memory

/-! ### Assumptions, condition and result -/

section Statement

variable (E : Externals) (validators : Height → ValidatorSet) (config : NodeConfig)

/-- **What the environment keeps to.** Every height has one validator set; consensus asks for values
at the current height before it is decided, from its proposer, and decides and finalizes the current
height; synced values come with the proposer of their round; parts under the node's own key come
from its streams; and the execution layer answers a query for a number with that block. -/
def Expected (before : Node × Proposals) : NodeInput → Prop
  | .consensusReady layer _ =>
    (∀ next ∈ (latestHeightCons before.1.world.db).increment,
        ∀ validatorSet ∈ layer.validatorSet next, validatorSet = validators next) ∧
      ∀ stored ∈ before.1.world.db.certificates.get (latestHeightCons before.1.world.db),
        ∀ reached ∈ checkpointSync layer stored.certificate.valueId
          (latestHeightCons before.1.world.db),
          reached.blockNumber = latestHeightCons before.1.world.db
  | .getValue height round _ | .crashInGetValue height round _ =>
    electedAt validators height round = some config.address ∧
      ∀ state ∈ before.1.state, height = state.currentHeight ∧ state.decision = none
  | .receivedProposalPart delivery _ => ∀ state ∈ before.1.state,
    ∀ parts ∈ (receive state.streams delivery).2.completed,
      Genuine E validators config.address before.2.all parts
  | .processSyncedValue height round proposer _ =>
    electedAt validators height round = some proposer
  | .decided certificate answers =>
    (∀ state ∈ before.1.state, certificate.height = state.currentHeight) ∧
      ∀ next ∈ certificate.height.increment,
        ∀ validatorSet ∈ answers.validatorSet, validatorSet = validators next
  | .crashInCommit certificate _ | .finalized certificate _ =>
    ∀ state ∈ before.1.state, certificate.height = state.currentHeight
  | _ => True

instance (before : Node × Proposals) (input : NodeInput) :
    Decidable (Expected E validators config before input) := by
  cases input <;> dsimp only [Expected] <;> infer_instance

/-- **No row is lost while it is needed**: a value is asked for again only if the height has not
been restarted since it was prepared, and a commit does not prune its own certificate. -/
def RowsLast (before : Node × Proposals) : NodeInput → Prop
  | .getValue height round _ | .crashInGetValue height round _ =>
    ∀ block ∈ before.2.all, block.proposer = config.address → block.height = height →
      block.round = round → block ∈ before.2.live
  | .decided certificate _ | .crashInCommit certificate _ =>
    config.prune.certificatesBefore ≤ certificate.height
  | _ => True

instance (before : Node × Proposals) (input : NodeInput) :
    Decidable (RowsLast config before input) := by
  cases input <;> dsimp only [RowsLast] <;> infer_instance

/-- Two blocks of the node itself in one round are one block. -/
def OnePerRound (own : Address) (blocks : List ConsensusBlock) : Prop :=
  ∀ first ∈ blocks, ∀ second ∈ blocks, first.proposer = own → second.proposer = own →
    first.height = second.height → first.round = second.round → first.key = second.key
  deriving Decidable

end Statement

/-! ### The invariant -/

def Certified (db : AppDb) (height : Height) : Prop :=
  ∃ certified, height ≤ certified ∧ (db.certificates.get certified).isSome = true

section Invariant

variable (E : Externals) (validators : Height → ValidatorSet) (own : Address)

/-- **The position of a running node**: its validators are those of the height, and the prepared
blocks of this height and later ones are in the table until it is decided. -/
structure Running (live : List ConsensusBlock) (db : AppDb) (state : State) : Prop where
  validatorSet : state.validatorSet = validators state.currentHeight
  decision : ∀ info, state.decision = some (.success info) →
    info.validatorSet = validators info.nextHeight ∧
      info.nextHeight.val = state.currentHeight.val + 1
  held : ∀ block ∈ live, block.proposer = own →
    block.height.val < state.currentHeight.val + (if state.decision.isSome then 1 else 0) ∨
      (db.undecidedBlocks.get block.key).isSome = true

structure SoleInv (before : Node × Proposals) : Prop where
  rows : Provenance E validators own before.2.all before.1.world.db
  sole : OnePerRound own before.2.all
  elected : ∀ block ∈ before.2.all, block.proposer = own →
    electedAt validators block.height block.round = some own
  live : before.2.live ⊆ before.2.all
  stored : ∀ block ∈ before.2.live, block.proposer = own →
    Certified before.1.world.db block.height ∨
      (before.1.world.db.undecidedBlocks.get block.key).isSome = true
  state : ∀ state ∈ before.1.state, Running validators own before.2.live before.1.world.db state

end Invariant

/-! ### Steps that propose nothing -/

variable {height : Height} {live published : List ConsensusBlock} {db : AppDb}

section Steps

variable {E : Externals} {validators : Height → ValidatorSet} {own : Address} {node after : Node}
  {state : State} {seen : Proposals} {block : ConsensusBlock} {config : NodeConfig}
  {certificate : CommitCertificate}

theorem Certified.mono {before later : AppDb} (certified : Certified before height)
    (kept : ∀ other, (before.certificates.get other).isSome = true →
      (later.certificates.get other).isSome = true) : Certified later height := by
  obtain ⟨other, above, there⟩ := certified
  exact ⟨other, above, kept other there⟩

theorem Running.mono {before later : AppDb}
    (running : Running validators own live before state) (kept : RowsKept before later) :
    Running validators own live later state where
  validatorSet := running.validatorSet
  decision := running.decision
  held block member ours := (running.held block member ours).imp_right (kept block.key)

theorem Running.move {later : State}
    (running : Running validators own live db state) (same : SamePosition state later) :
    Running validators own live db later where
  validatorSet := by
    rw [same.validatorSet, same.currentHeight]
    exact running.validatorSet
  decision := by
    rw [same.decision, same.currentHeight]
    exact running.decision
  held := by
    rw [same.decision, same.currentHeight]
    exact running.held

theorem Running.failed
    (running : Running validators own live db state) :
    Running validators own live db { state with decision := some .failure } where
  validatorSet := running.validatorSet
  decision info same := by cases same
  held block member ours := by
    refine (running.held block member ours).imp_left fun below => ?_
    show block.height.val < state.currentHeight.val + 1
    split_ifs at below <;> omega

theorem get_cleaned {key : BlockKey} (above : height < key.height) :
    (db.cleanStaleConsensusData height).undecidedBlocks.get key = db.undecidedBlocks.get key := by
  unfold Db.cleanStaleConsensusData
  dsimp only
  rw [Table.get_retain]
  cases db.undecidedBlocks.get key with
  | none => rfl
  | some row => exact Option.filter_some_pos (decide_eq_true above)

theorem Provenance.fewer {before later : AppDb}
    (rows : Provenance E validators own published before)
    (undecided : ∀ key row, later.undecidedBlocks.get key = some row →
      before.undecidedBlocks.get key = some row)
    (pending : ∀ key parts, later.pendingProposalParts.get key = some parts →
      before.pendingProposalParts.get key = some parts) :
    Provenance E validators own published later where
  keyed key row found := rows.keyed key row (undecided key row found)
  elected key row found := rows.elected key row (undecided key row found)
  signed key row found := rows.signed key row (undecided key row found)
  pending key parts found := rows.pending key parts (pending key parts found)

theorem provenance_cleaned
    (rows : Provenance E validators own published db) (height : Height) :
    Provenance E validators own published (db.cleanStaleConsensusData height) :=
  rows.fewer (fun _ _ found => Table.get_of_get_retain found) fun _ _ found =>
    Table.get_of_get_retain found

variable (inv : SoleInv E validators own (node, seen))

include inv

theorem SoleInv.down : SoleInv E validators own (node.down, seen) :=
  { inv with state := fun state member => by cases member }

variable (running : node.state = some state)

include running

theorem SoleInv.ingest
    (rows : Provenance E validators own seen.all after.world.db)
    (kept : RowsKept node.world.db after.world.db)
    (certificates : after.world.db.certificates = node.world.db.certificates)
    (position : ∀ later ∈ after.state, SamePosition state later) :
    SoleInv E validators own (after, seen) where
  rows := rows
  sole := inv.sole
  elected := inv.elected
  live := inv.live
  stored block member ours := by
    rcases inv.stored block member ours with certified | there
    · exact .inl (certified.mono fun _ present => certificates ▸ present)
    · exact .inr (kept block.key there)
  state later member :=
    ((inv.state state running).move (position later member)).mono kept

/-! ### Steps that propose -/

/-- **A value is asked for as expected**: at the current height before it is decided, of its
proposer, and nothing that was prepared for the round has been dropped since. -/
structure Asked (validators : Height → ValidatorSet) (own : Address) (seen : Proposals) (state : State)
    (height : Height) (round : Round) : Prop where
  elected : electedAt validators height round = some own
  current : height = state.currentHeight
  undecided : state.decision = none
  lasts : ∀ earlier ∈ seen.all, earlier.proposer = own → earlier.height = height →
    earlier.round = round → earlier ∈ seen.live

def Proposals.add (seen : Proposals) (block : ConsensusBlock) : Proposals :=
  ⟨seen.all ++ [block], seen.live ++ [block]⟩

/-- **A block joins the memory**: it is the block of its round if there was one, it is accounted
for, and its row is in the table. -/
theorem SoleInv.add
    (rows : Provenance E validators own (seen.add block).all after.world.db)
    (kept : RowsKept node.world.db after.world.db)
    (certificates : after.world.db.certificates = node.world.db.certificates)
    (sole : block.proposer = own → ∀ earlier ∈ seen.all, earlier.proposer = own →
      earlier.height = block.height → earlier.round = block.round → earlier.key = block.key)
    (elected : electedAt validators block.height block.round = some block.proposer)
    (there : (after.world.db.undecidedBlocks.get block.key).isSome = true)
    (position : ∀ later ∈ after.state, SamePosition state later) :
    SoleInv E validators own (after, seen.add block) where
  rows := rows
  sole first firstMember second secondMember ours theirs heights rounds := by
    rcases List.mem_append.mp firstMember with old | new <;>
      rcases List.mem_append.mp secondMember with old' | new'
    · exact inv.sole first old second old' ours theirs heights rounds
    · obtain rfl := List.mem_singleton.mp new'
      exact sole theirs first old ours heights rounds
    · obtain rfl := List.mem_singleton.mp new
      exact (sole ours second old' theirs heights.symm rounds.symm).symm
    · rw [List.mem_singleton.mp new, List.mem_singleton.mp new']
  elected other member ours := by
    rcases List.mem_append.mp member with old | new
    · exact inv.elected other old ours
    · obtain rfl := List.mem_singleton.mp new
      rw [elected, ours]
  live := List.append_subset.mpr
    ⟨fun _ member => List.mem_append_left _ (inv.live member), List.subset_append_right _ _⟩
  stored other member ours := by
    rcases List.mem_append.mp member with old | new
    · rcases inv.stored other old ours with certified | present
      · exact .inl (certified.mono fun _ present => certificates ▸ present)
      · exact .inr (kept other.key present)
    · rw [List.mem_singleton.mp new]
      exact .inr there
  state later member := by
    have before := ((inv.state state running).move (position later member)).mono kept
    refine ⟨before.validatorSet, before.decision, fun other added ours => ?_⟩
    rcases List.mem_append.mp added with old | new
    · exact before.held other old ours
    · rw [List.mem_singleton.mp new]
      exact .inr there

/-- **Asked again, a node finds the block it prepared.** -/
theorem SoleInv.requested {round : Round}
    (asked : Asked validators own seen state height round)
    (requested : Requested node.world.db own height round block) :
    (block.height = height ∧ block.round = round ∧ block.proposer = own) ∧
      ∀ earlier ∈ seen.all, earlier.proposer = own → earlier.height = height →
        earlier.round = round → earlier.key = block.key := by
  -- the row of an earlier block of the round is still there, and it is an own row
  have present : ∀ earlier ∈ seen.all, earlier.proposer = own → earlier.height = height →
      earlier.round = round → ∃ row, node.world.db.undecidedBlocks.get earlier.key = some row ∧
        row.proposer = own := by
    intro earlier member ours heights rounds
    rcases (inv.state state running).held earlier (asked.lasts earlier member ours heights rounds) ours
      with below | there
    · rw [asked.undecided, heights, asked.current] at below
      exact absurd below (lt_irrefl _)
    · obtain ⟨row, found⟩ := Option.isSome_iff_exists.mp there
      have proposer := inv.rows.elected earlier.key row found
      rw [show earlier.key.height = height from heights,
        show earlier.key.round = round from rounds, asked.elected] at proposer
      exact ⟨row, found, (Option.some.inj proposer).symm⟩
  rcases requested with built | ⟨fresh, atHeight, atRound, ours⟩
  · obtain ⟨⟨ours, key, found, atHeight, atRound⟩, only⟩ := getPreviouslyBuiltBlock_eq_some built
    have same := inv.rows.keyed key block found
    refine ⟨⟨?_, ?_, ours⟩, fun earlier member proposer heights rounds => ?_⟩
    · rw [← atHeight, ← same]
      rfl
    · rw [← atRound, ← same]
      rfl
    · obtain ⟨row, there, own⟩ := present earlier member proposer heights rounds
      rw [← only earlier.key row there heights rounds own]
      exact (inv.rows.keyed earlier.key row there).symm
  · refine ⟨⟨atHeight, atRound, ours⟩, fun earlier member proposer heights rounds => ?_⟩
    obtain ⟨row, there, own⟩ := present earlier member proposer heights rounds
    exact absurd own (getPreviouslyBuiltBlock_eq_none fresh there heights rounds)

theorem SoleInv.proposes {round : Round}
    (asked : Asked validators own seen state height round)
    (requested : Requested node.world.db own height round block) {messages : List StreamMessage}
    (facts : Proposes E node.world block after.world messages)
    (position : ∀ later ∈ after.state, SamePosition state later) :
    ∃ proposed, streamedBlock E messages = some proposed ∧
      SoleInv E validators own (after, seen.add proposed) := by
  obtain ⟨⟨atHeight, atRound, ours⟩, sole⟩ :=
    inv.requested running asked requested
  have elected : electedAt validators block.height block.round = some block.proposer := by
    rw [atHeight, atRound, ours]
    exact asked.elected
  obtain ⟨signature, carried, table⟩ := facts.carried
  refine ⟨_, carried, ?_⟩
  have grown := inv.rows.mono (List.subset_append_left seen.all
    [{ block with validity := .valid, signature := some signature }])
  have kept : RowsKept node.world.db after.world.db := by
    intro key there
    rw [table, Table.get_insert]
    split_ifs
    · rfl
    · exact there
  refine inv.add running ⟨?_, ?_, ?_, ?_⟩ kept facts.certificates ?_ elected ?_ position
  · intro key row found
    rw [table] at found
    obtain ⟨rfl, rfl⟩ | old := Table.get_insert_cases found
    · rfl
    · exact inv.rows.keyed key row old
  · intro key row found
    rw [table] at found
    obtain ⟨rfl, rfl⟩ | old := Table.get_insert_cases found
    · exact elected
    · exact inv.rows.elected key row old
  · intro key row found proposer signed
    rw [table] at found
    obtain ⟨here, -⟩ | old := Table.get_insert_cases found
    · exact ⟨_, List.mem_append_right _ (List.mem_singleton_self _), ours, here.symm⟩
    · exact grown.signed key row old proposer signed
  · rw [facts.pending]
    exact grown.pending
  · intro _ earlier member proposer heights rounds
    exact sole earlier member proposer (heights.trans atHeight) (rounds.trans atRound)
  · show (after.world.db.undecidedBlocks.get block.key).isSome = true
    rw [table, Table.get_insert_self]
    rfl

theorem SoleInv.restreams {key : BlockKey} {signature : Signature}
    (found : node.world.db.undecidedBlocks.get key = some block)
    (signed : block.signature.isSome = true) (world : after.world = node.world)
    (position : ∀ later ∈ after.state, SamePosition state later) :
    SoleInv E validators own
      (after, seen.add { block with validity := .valid, signature := some signature }) := by
  have same : block.key = key := inv.rows.keyed key block found
  have elected : electedAt validators block.height block.round = some block.proposer := by
    have there := inv.rows.elected key block found
    rwa [← same] at there
  refine inv.add running ?_ ?_ ?_ ?_ elected ?_ position
  · rw [world]
    exact inv.rows.mono (List.subset_append_left _ _)
  · rw [world]
    exact .of_eq rfl
  · rw [world]
  · intro ours earlier member proposer heights rounds
    obtain ⟨prepared, present, own, known⟩ := inv.rows.signed key block found ours signed
    have height : prepared.height = block.height := congrArg BlockKey.height (known.trans same.symm)
    have round : prepared.round = block.round := congrArg BlockKey.round (known.trans same.symm)
    have here := inv.sole earlier member prepared present proposer own (heights.trans height.symm)
      (rounds.trans round.symm)
    exact here.trans (known.trans same.symm)
  · show (after.world.db.undecidedBlocks.get block.key).isSome = true
    rw [world, same, found]
    rfl

/-! ### Decisions, finalizations and starts -/

theorem SoleInv.refuses (refused : Refuses node state after) :
    SoleInv E validators own (after, seen) where
  rows := refused.world ▸ inv.rows
  sole := inv.sole
  elected := inv.elected
  live := inv.live
  stored := refused.world ▸ inv.stored
  state later member := by
    rw [refused.state later member, show after.world = node.world from refused.world]
    exact (inv.state state running).failed

/-- **A commit keeps the invariant**: the rows it drops are of heights that are certified now. -/
theorem SoleInv.commits (current : certificate.height = state.currentHeight)
    (bounded : config.prune.certificatesBefore ≤ certificate.height)
    {answered : Option ValidatorSet} (known : ∀ next ∈ certificate.height.increment,
      ∀ validatorSet ∈ answered, validatorSet = validators next) {row : ConsensusBlock}
    (commits : Commits config node state certificate answered row after) :
    SoleInv E validators own (after, seen) := by
  have here := inv.state state running
  have kept : ∀ key : BlockKey, certificate.height < key.height →
      (node.world.db.undecidedBlocks.get key).isSome = true →
      (after.world.db.undecidedBlocks.get key).isSome = true := by
    intro key above there
    rcases commits.frame.rows with ⟨same, -⟩ | ⟨same, -⟩
    · rw [same]
      exact there
    · rw [same, get_cleaned above]
      exact there
  have certified : (after.world.db.certificates.get certificate.height).isSome = true := by
    rw [commits.frame.certificates bounded _ le_rfl, Table.get_insert_self]
    rfl
  have rows : Provenance E validators own seen.all after.world.db := by
    rcases commits.frame.rows with ⟨undecided, pending⟩ | ⟨undecided, pending⟩
    · exact inv.rows.fewer (fun _ _ found => undecided ▸ found) fun _ _ found => pending ▸ found
    · exact (provenance_cleaned inv.rows certificate.height).fewer
        (fun _ _ found => undecided ▸ found) fun _ _ found => pending ▸ found
  refine ⟨rows, inv.sole, inv.elected, inv.live, fun block member ours => ?_, fun later member => ?_⟩
  · rcases inv.stored block member ours with ⟨other, above, there⟩ | there
    · left
      rcases le_total certificate.height other with after | before
      · refine ⟨other, above, ?_⟩
        rw [commits.frame.certificates bounded other after, Table.get_insert]
        split_ifs
        · rfl
        · exact there
      · exact ⟨certificate.height, above.trans before, certified⟩
    · rcases le_or_gt block.height certificate.height with below | above
      · exact .inl ⟨certificate.height, below, certified⟩
      · exact .inr (kept block.key above there)
  · have held : ∀ block ∈ seen.live, block.proposer = own →
        block.height.val < state.currentHeight.val + 1 ∨
          (after.world.db.undecidedBlocks.get block.key).isSome = true := by
      intro block member ours
      rcases here.held block member ours with below | there
      · left
        split_ifs at below <;> omega
      · rcases le_or_gt block.height certificate.height with below | above
        · left
          rw [current, Height.le_def] at below
          omega
        · exact .inr (kept block.key above there)
    rcases commits.state later member with rfl | ⟨nextHeight, validatorSet, next, found, rfl⟩
    · exact ⟨here.validatorSet, fun info same => (by cases same), held⟩
    · refine ⟨here.validatorSet, fun info same => ?_, held⟩
      obtain rfl := Decision.success.inj (Option.some.inj same)
      refine ⟨known nextHeight next validatorSet found, ?_⟩
      rw [← current]
      exact Height.increment_eq_some.mp next

omit running in
theorem SoleInv.storeFinalized (certificate : CommitCertificate) (evidence : Option (List Byte)) :
    SoleInv E validators own (storeFinalized node certificate evidence, seen) := by
  have frame := finalizedFrame_storeFinalized node certificate evidence
  have kept : RowsKept node.world.db (App.storeFinalized node certificate evidence).world.db :=
    .of_eq frame.undecidedBlocks
  refine ⟨?_, inv.sole, inv.elected, inv.live, fun block member ours => ?_, fun state member => ?_⟩
  · exact inv.rows.fewer (fun _ _ found => frame.undecidedBlocks ▸ found)
      fun _ _ found => frame.pendingProposalParts ▸ found
  · refine (inv.stored block member ours).imp (fun certified => ?_) (kept block.key)
    refine certified.mono fun other there => ?_
    rw [← Option.isSome_map, frame.values other, Option.isSome_map]
    exact there
  · exact (inv.state state member).mono kept

def Proposals.restarted (seen : Proposals) (height : Height) : Proposals :=
  { seen with live := seen.live.filter fun block => height < block.height }

theorem SoleInv.restarts (current : height = state.currentHeight) :
    SoleInv E validators own
      (restartHeight node { state with decision := none } height, seen.restarted height) := by
  have fewer : ∀ block ∈ (seen.restarted height).live, block ∈ seen.live ∧ height < block.height := by
    intro block member
    obtain ⟨old, above⟩ := List.mem_filter.mp member
    exact ⟨old, of_decide_eq_true above⟩
  have live : (seen.restarted height).live ⊆ seen.all := fun block member =>
    inv.live (fewer block member).1
  rcases restartHeight_cases node { state with decision := none } height with same | ⟨previous, same⟩
  · rw [same]
    exact ⟨inv.rows, inv.sole, inv.elected, live,
      fun block member ours => inv.stored block (fewer block member).1 ours,
      fun later member => by cases member⟩
  · rw [same]
    refine ⟨provenance_cleaned inv.rows height, inv.sole, inv.elected, live, ?_, ?_⟩
    · intro block member ours
      obtain ⟨old, above⟩ := fewer block member
      refine (inv.stored block old ours).imp_right fun there => ?_
      show ((node.world.db.cleanStaleConsensusData height).undecidedBlocks.get block.key).isSome = true
      rw [get_cleaned above]
      exact there
    · intro later member
      rw [← Option.some.inj member]
      refine ⟨?_, fun info decided => (by cases decided), fun block added ours => .inr ?_⟩
      · show state.validatorSet = validators height
        rw [current]
        exact (inv.state state running).validatorSet
      · obtain ⟨old, above⟩ := fewer block added
        show ((node.world.db.cleanStaleConsensusData height).undecidedBlocks.get block.key).isSome =
          true
        rw [get_cleaned above]
        refine ((inv.state state running).held block old ours).resolve_left fun below => ?_
        rw [current, Height.lt_def] at above
        split_ifs at below <;> omega

/-- **Moving on keeps the invariant**: the decided height is below the next one. -/
theorem SoleInv.movesOn {info : NextHeightInfo} {evidence : Option (List Byte)}
    (decided : state.decision = some (.success info))
    (moves : MovesOn node state info certificate evidence after) :
    SoleInv E validators own (after, seen) := by
  have finalized := inv.storeFinalized certificate evidence
  obtain ⟨known, next⟩ := (inv.state state running).decision info decided
  have there := finalized.state state running
  refine ⟨?_, inv.sole, inv.elected, inv.live, ?_, fun later member => ?_⟩
  · rw [moves.world]
    exact finalized.rows
  · rw [moves.world]
    exact finalized.stored
  · rw [moves.state later member, moves.world]
    refine ⟨known, fun other taken => (by cases taken), fun block added ours => ?_⟩
    refine (there.held block added ours).imp_left fun below => ?_
    show block.height.val < info.nextHeight.val + 0
    rw [decided, Option.isSome_some, if_pos rfl] at below
    rw [next]
    exact below

omit running in
theorem SoleInv.starts (engine : Engine)
    {layer : ExecutionLayer} (now : ℕ)
    (known : ∀ next ∈ (latestHeightCons node.world.db).increment,
      ∀ validatorSet ∈ layer.validatorSet next, validatorSet = validators next)
    (numbered : ∀ stored ∈ node.world.db.certificates.get (latestHeightCons node.world.db),
      ∀ reached ∈ checkpointSync layer stored.certificate.valueId
        (latestHeightCons node.world.db),
        reached.blockNumber = latestHeightCons node.world.db) :
    SoleInv E validators own (consensusReady engine config node layer now, seen) := by
  obtain ⟨frame, starts⟩ := consensusReady_cases engine config node layer now
  refine ⟨?_, inv.sole, inv.elected, inv.live, ?_, fun state member => ?_⟩
  · exact inv.rows.fewer (fun _ _ found => frame.undecidedBlocks ▸ found) frame.pending
  · intro block member ours
    refine (inv.stored block member ours).imp (fun certified => ?_) fun there => ?_
    · exact certified.mono fun _ present => frame.certificates ▸ present
    · exact frame.undecidedBlocks ▸ there
  · obtain ⟨head, previous, present, path, -, next⟩ := (starts state member).path
    have position := position_of_path path numbered
    rw [position] at next
    refine ⟨known _ next _ (starts state member).validatorSet, fun info same => ?_, ?_⟩
    · rw [(starts state member).decision] at same
      cases same
    · intro block added ours
      rw [(starts state member).decision]
      refine (inv.stored block added ours).imp (fun certified => ?_) fun there => ?_
      · obtain ⟨other, above, there⟩ := certified
        have tip : other ≤ latestHeightCons node.world.db := le_latestHeightCons there
        have last := Height.increment_eq_some.mp next
        rw [Height.le_def] at above tip
        show block.height.val < state.currentHeight.val + 0
        omega
      · exact frame.undecidedBlocks ▸ there

end Steps

/-! ### The whole run -/

section Run

variable {E : Externals} {engine : Engine} {signBytes : BlockHash → Option Signature}
  {validators : Height → ValidatorSet} {config : NodeConfig} {node : Node} {state : State}
  {seen : Proposals}

variable {input : NodeInput}

theorem noteProposals_quiet (result : Node × List StreamMessage)
    (nothing : preparedBlock E engine signBytes config node input = none) :
    noteProposals E engine signBytes config seen node input result =
      (restartedUpTo node input).elim seen seen.restarted := by
  unfold noteProposals
  rw [nothing]
  cases restartedUpTo node input <;> simp [Proposals.restarted]

theorem noteProposals_silent (result : Node × List StreamMessage)
    (nothing : preparedBlock E engine signBytes config node input = none)
    (goes : restartedUpTo node input = none) :
    noteProposals E engine signBytes config seen node input result = seen := by
  rw [noteProposals_quiet result nothing, goes, Option.elim_none]

theorem noteProposals_add (result : Node × List StreamMessage)
    {block : ConsensusBlock}
    (prepared : preparedBlock E engine signBytes config node input = some block)
    (goes : restartedUpTo node input = none) :
    noteProposals E engine signBytes config seen node input result = seen.add block := by
  unfold noteProposals
  rw [prepared, goes]
  rfl

/-- Whether an input asks for a value. -/
def NodeInput.asks : NodeInput → Bool
  | .getValue .. | .crashInGetValue .. => true
  | _ => false

/-- **An input that ingests** keeps the rows and their provenance, and proposes nothing. -/
theorem provenance_quiet (rows : Provenance E validators config.address seen.all node.world.db)
    (running : node.state = some state) (known : state.validatorSet = validators state.currentHeight)
    {input : NodeInput} (quiet : input.quiet = true)
    (expected : Expected E validators config (node, seen) input)
    (ingests : input.asks = false) :
    Provenance E validators config.address seen.all
        (runningStep E engine signBytes config node state input).1.world.db ∧
      RowsKept node.world.db
        (runningStep E engine signBytes config node state input).1.world.db := by
  cases input with
  | consensusReady layer now => exact ⟨rows, .of_eq rfl⟩
  | startedRound height round localTime =>
    exact provenance_startedRound rows known height round localTime
  | getValue | crashInGetValue => cases ingests
  | restreamProposal height valueId => exact ⟨rows, .of_eq rfl⟩
  | receivedProposalPart delivery localTime =>
    exact provenance_onReceivedProposalPart rows known (expected state running)
  | processSyncedValue height round proposer valueBytes =>
    exact provenance_onProcessSyncedValue rows _ expected valueBytes
  | crash => exact ⟨rows, .of_eq rfl⟩
  | crashInRound height round turns => exact provenance_interruptedRound rows known height round turns
  | decided | finalized | crashInCommit | crashInFinalized => cases quiet

theorem nodeStep_running (running : node.state = some state) (input : NodeInput) :
    nodeStep E engine signBytes config node input =
      runningStep E engine signBytes config node state input := by
  unfold nodeStep
  rw [running]

theorem provenance_sameTables {before later : AppDb}
    {own : Address} (rows : Provenance E validators own published before)
    (same : SameTables before later) : Provenance E validators own published later :=
  rows.fewer (fun _ _ found => same.undecidedBlocks ▸ found)
    fun _ _ found => same.pendingProposalParts ▸ found

theorem soleInv_getValue
    (roundTrip : ∀ payload, E.fromSszBytes (E.asSszBytes payload) = .ok payload)
    (inv : SoleInv E validators config.address (node, seen))
    (running : node.state = some state) {round : Round} {answer : BuildAnswer}
    (asked : Asked validators config.address seen state height round)
    (prepares : preparedBlock E engine signBytes config node input =
      streamedBlock E (getValue E engine signBytes config node.world state height round answer).2.2)
    (goes : restartedUpTo node input = none) {after : Node}
    (world : after.world = (getValue E engine signBytes config node.world state height round answer).1)
    (position : ∀ later ∈ after.state, SamePosition state later)
    (result : Node × List StreamMessage) :
    SoleInv E validators config.address
      (after, noteProposals E engine signBytes config seen node input result) := by
  rcases @getValue_cases E engine signBytes config roundTrip node.world state height round answer with
    ⟨tables, silent⟩ | ⟨block, requested, facts⟩
  · rw [silent, streamedBlock_nil] at prepares
    rw [noteProposals_silent result prepares goes]
    rw [← world] at tables
    exact inv.ingest running (provenance_sameTables inv.rows tables) (.of_eq tables.undecidedBlocks)
      tables.certificates position
  · rw [← world] at facts
    obtain ⟨proposed, carried, kept⟩ := inv.proposes running asked requested facts position
    rw [noteProposals_add result (prepares.trans carried) goes]
    exact kept

theorem preparedBlock_running (running : node.state = some state) (ingests : input.asks = false) :
    preparedBlock E engine signBytes config node input =
      streamedBlock E (runningStep E engine signBytes config node state input).2 := by
  rw [← nodeStep_running running]
  cases input with
  | crashInGetValue => cases ingests
  | _ => rfl

theorem restartedUpTo_quiet (quiet : input.quiet = true) : restartedUpTo node input = none := by
  cases input with
  | finalized => cases quiet
  | _ => rfl

theorem soleInv_silent (inv : SoleInv E validators config.address (node, seen))
    (running : node.state = some state) (quiet : input.quiet = true)
    (expected : Expected E validators config (node, seen) input)
    (ingests : input.asks = false)
    (nothing : preparedBlock E engine signBytes config node input = none) :
    SoleInv E validators config.address
      ((runningStep E engine signBytes config node state input).1,
        noteProposals E engine signBytes config seen node input
          (runningStep E engine signBytes config node state input)) := by
  have frame : QuietFrame E node state input
      (runningStep E engine signBytes config node state input).1 := quiet_frame running quiet
  obtain ⟨rows, kept⟩ := @provenance_quiet E engine signBytes validators config node state seen
    inv.rows running (inv.state state running).validatorSet input quiet expected ingests
  rw [noteProposals_silent _ nothing (restartedUpTo_quiet quiet)]
  exact inv.ingest running rows kept frame.tables.certificates frame.position

theorem soleInv_restreamProposal
    (roundTrip : ∀ payload, E.fromSszBytes (E.asSszBytes payload) = .ok payload)
    (inv : SoleInv E validators config.address (node, seen)) (running : node.state = some state)
    (height : Height) (valueId : BlockHash) :
    SoleInv E validators config.address
      ((runningStep E engine signBytes config node state (.restreamProposal height valueId)).1,
        noteProposals E engine signBytes config seen node (.restreamProposal height valueId)
          (runningStep E engine signBytes config node state (.restreamProposal height valueId))) := by
  have prepares : preparedBlock E engine signBytes config node (.restreamProposal height valueId) =
      streamedBlock E (restreamProposal E signBytes node.world state height valueId).2 :=
    preparedBlock_running running rfl
  rcases @restreamProposal_cases E signBytes roundTrip node.world state height valueId with
    silent | ⟨key, block, signature, found, signed, carried⟩
  · rw [silent, streamedBlock_nil] at prepares
    exact soleInv_silent inv running rfl trivial rfl prepares
  · rw [noteProposals_add _ (prepares.trans carried) rfl]
    exact inv.restreams running found signed rfl (samePosition_restreamProposal height valueId)

theorem soleInv_finalized (inv : SoleInv E validators config.address (node, seen))
    (running : node.state = some state) {certificate : CommitCertificate}
    (current : certificate.height = state.currentHeight) (evidence : Option (List Byte)) :
    SoleInv E validators config.address (finalized config node state certificate evidence,
      noteProposals E engine signBytes config seen node (.finalized certificate evidence)
        (finalized config node state certificate evidence, [])) := by
  have nothing : preparedBlock E engine signBytes config node (.finalized certificate evidence) =
      none := preparedBlock_running running rfl
  have restarts : restartedUpTo node (.finalized certificate evidence) =
      if state.decision = some .failure then some certificate.height else none := by
    show node.state.bind _ = _
    rw [running, Option.bind_some]
  rcases finalized_cases config node state certificate evidence with
    ⟨info, decided, moves⟩ | ⟨decided, same⟩ | ⟨decided, same⟩
  · rw [decided, if_neg (by simp)] at restarts
    rw [noteProposals_silent _ nothing restarts]
    exact inv.movesOn running decided moves
  · rw [decided, if_pos rfl] at restarts
    rw [noteProposals_quiet _ nothing, restarts, Option.elim_some, same]
    exact (inv.storeFinalized certificate evidence).restarts running current
  · rw [decided, if_neg (by simp)] at restarts
    rw [noteProposals_silent _ nothing restarts, same]
    exact inv.down

theorem soleInv_running (roundTrip : ∀ payload, E.fromSszBytes (E.asSszBytes payload) = .ok payload)
    (inv : SoleInv E validators config.address (node, seen))
    (running : node.state = some state) (expected : Expected E validators config (node, seen) input)
    (lasts : RowsLast config (node, seen) input) :
    SoleInv E validators config.address
      ((runningStep E engine signBytes config node state input).1,
        noteProposals E engine signBytes config seen node input
          (runningStep E engine signBytes config node state input)) := by
  have stopped : ∀ later ∈ (none : Option State), SamePosition state later := by
    intro later member
    cases member
  have silent : (runningStep E engine signBytes config node state input).2 = [] → input.asks = false →
      preparedBlock E engine signBytes config node input = none := by
    intro nothing ingests
    rw [preparedBlock_running running ingests, nothing, streamedBlock_nil]
  cases input with
  | getValue height round answer =>
    obtain ⟨elected, now⟩ := expected
    obtain ⟨current, undecided⟩ := now state running
    refine soleInv_getValue roundTrip inv running ⟨elected, current, undecided, lasts⟩ ?_ rfl rfl
      (samePosition_getValue height round answer) _
    dsimp only [preparedBlock]
    rw [nodeStep_running running]
    rfl
  | crashInGetValue height round answer =>
    obtain ⟨elected, now⟩ := expected
    obtain ⟨current, undecided⟩ := now state running
    refine soleInv_getValue roundTrip inv running ⟨elected, current, undecided, lasts⟩ ?_ rfl rfl
      stopped _
    show node.state.bind _ = _
    rw [running, Option.bind_some]
  | restreamProposal height valueId =>
    exact soleInv_restreamProposal roundTrip inv running height valueId
  | finalized certificate evidence =>
    exact soleInv_finalized inv running (expected state running) evidence
  | decided certificate answers =>
    rw [noteProposals_silent _ (silent rfl rfl) rfl]
    rcases decided_cases config node state certificate answers with refused | ⟨row, commits⟩
    · exact inv.refuses running refused
    · exact inv.commits running (expected.1 state running) lasts expected.2 commits
  | crashInCommit certificate stop =>
    rw [noteProposals_silent _ (silent rfl rfl) rfl]
    rcases interruptedCommit_cases config node state certificate stop with refused | ⟨row, commits⟩
    · exact inv.refuses running refused
    · exact inv.commits running (expected state running) lasts
        (fun _ _ _ found => by cases found) commits
  | crashInFinalized certificate evidence =>
    rw [noteProposals_silent _ (silent rfl rfl) rfl]
    show SoleInv E validators config.address ((if state.decision.isSome then _ else _), seen)
    split_ifs
    · exact (inv.storeFinalized certificate evidence).down
    · exact inv.down
  | _ =>
    exact soleInv_silent inv running rfl expected rfl (silent rfl rfl)

theorem soleInv_step (roundTrip : ∀ payload, E.fromSszBytes (E.asSszBytes payload) = .ok payload)
    {before : Node × Proposals}
    (inv : SoleInv E validators config.address before)
    (expected : Expected E validators config before input) (lasts : RowsLast config before input) :
    SoleInv E validators config.address
      (proposingStep E engine signBytes config before input).1 := by
  obtain ⟨node, seen⟩ := before
  unfold proposingStep remembering
  cases running : node.state with
  | some state =>
    dsimp only
    rw [nodeStep_running running]
    exact soleInv_running roundTrip inv running expected lasts
  | none =>
    have silent : noteProposals E engine signBytes config seen node input
        (nodeStep E engine signBytes config node input) = seen := by
      refine noteProposals_silent _ ?_ ?_
      · cases input <;> simp [preparedBlock, nodeStep, running, streamedBlock_nil]
      · cases input <;> simp [restartedUpTo, running]
    dsimp only
    rw [silent]
    unfold nodeStep
    rw [running]
    cases input with
    | consensusReady layer now => exact inv.starts engine now expected.1 expected.2
    | _ => exact inv

theorem preparedBlock_of_streamed {block : ConsensusBlock}
    (sent : streamedBlock E (nodeStep E engine signBytes config node input).2 = some block) :
    preparedBlock E engine signBytes config node input = some block := by
  cases input with
  | crashInGetValue height round answer =>
    -- a process that dies in GetValue sends nothing
    have silent : (nodeStep E engine signBytes config node
        (.crashInGetValue height round answer)).2 = [] := by
      unfold nodeStep
      cases node.state <;> rfl
    rw [silent, streamedBlock_nil] at sent
    cases sent
  | _ => exact sent

theorem streamed_subset_all (inputs : List NodeInput) :
    seen.all ++ (outputs (nodeStep E engine signBytes config) node inputs).filterMap
        (streamedBlock E) ⊆
      (run (proposingStep E engine signBytes config) (node, seen) inputs).2.all := by
  induction inputs generalizing node seen with
  | nil =>
    show seen.all ++ [] ⊆ seen.all
    rw [List.append_nil]
    exact List.Subset.refl _
  | cons input rest ih =>
    refine List.append_subset.mpr ⟨?_, fun block member => ?_⟩
    · exact fun block member => ih (List.mem_append_left _ (List.mem_append_left _ member))
    · rcases List.mem_filterMap.mp member with ⟨messages, shown, carried⟩
      rcases List.mem_cons.mp shown with rfl | later
      · refine ih (List.mem_append_left _ (List.mem_append_right _ ?_))
        rw [preparedBlock_of_streamed carried]
        exact List.mem_singleton_self _
      · exact ih (List.mem_append_right _ (List.mem_filterMap.mpr ⟨messages, later, carried⟩))

theorem soleInv_new : SoleInv E validators config.address (Node.new, ⟨[], []⟩) where
  rows := provenance_empty E validators config.address []
  sole first member := by cases member
  elected block member := by cases member
  live := List.Subset.refl _
  stored block member := by cases member
  state state member := by cases member

/-- **One block per round**: in every run from an empty database in which the environment is as
expected and no row is lost while it is needed, the blocks that the node streams with itself as the
proposer have at most one hash per height and round. -/
theorem streams_one_block_per_round
    (roundTrip : ∀ payload, E.fromSszBytes (E.asSszBytes payload) = .ok payload)
    {inputs : List NodeInput}
    (expected : Along (proposingStep E engine signBytes config) (Expected E validators config)
      (Node.new, ⟨[], []⟩) inputs)
    (lasts : Along (proposingStep E engine signBytes config) (RowsLast config)
      (Node.new, ⟨[], []⟩) inputs) :
    OnePerRound config.address ((outputs (nodeStep E engine signBytes config) Node.new
      inputs).filterMap (streamedBlock E)) := by
  have final : SoleInv E validators config.address
      (run (proposingStep E engine signBytes config) (Node.new, ⟨[], []⟩) inputs) :=
    run_invariant (fun _ _ inv meets => soleInv_step roundTrip inv meets.1 meets.2) soleInv_new
      (expected.and lasts)
  have sent := @streamed_subset_all E engine signBytes config Node.new ⟨[], []⟩ inputs
  intro first member second member'
  exact final.sole first (sent member) second (sent member')

end Run

section Samples

/-- An encoding of every payload, with the fields in order. -/
def plainBytes (payload : ExecutionPayload) : List Byte :=
  beBytes 32 payload.parentHash.val ++ (beBytes 8 payload.blockNumber.val ++
    (beBytes 8 payload.timestamp.val ++ (beBytes 32 payload.blockHash.val ++ payload.body)))

def fromPlainBytes (bytes : List Byte) : Except String ExecutionPayload :=
  let afterParent := bytes.drop 32
  let afterNumber := afterParent.drop 8
  let afterTime := afterNumber.drop 8
  .ok { parentHash := Fin.ofNat (2 ^ 256) (beValue (bytes.take 32))
        blockNumber := Height.new (beValue (afterParent.take 8))
        timestamp := Fin.ofNat (2 ^ 64) (beValue (afterNumber.take 8))
        blockHash := Fin.ofNat (2 ^ 256) (beValue (afterTime.take 32))
        body := afterTime.drop 32 }

theorem fromPlainBytes_plainBytes (payload : ExecutionPayload) :
    fromPlainBytes (plainBytes payload) = .ok payload := by
  have hashes : ∀ hash : BlockHash, Fin.ofNat (2 ^ 256) (beValue (beBytes 32 hash.val)) = hash := by
    intro hash
    rw [beValue_beBytes (hash.isLt.trans_eq (by norm_num)), Fin.ofNat_val_eq_self]
  have times : ∀ time : Fin (2 ^ 64), Fin.ofNat (2 ^ 64) (beValue (beBytes 8 time.val)) = time := by
    intro time
    rw [beValue_beBytes (time.isLt.trans_eq (by norm_num)), Fin.ofNat_val_eq_self]
  have numbers : Height.new (beValue (beBytes 8 payload.blockNumber.val)) = payload.blockNumber := by
    rw [beValue_beBytes (payload.blockNumber.isLt.trans_eq (by norm_num))]
    exact Height.ext (Nat.mod_eq_of_lt payload.blockNumber.isLt)
  simp only [fromPlainBytes, plainBytes, List.take_left' (length_beBytes _ _),
    List.drop_left' (length_beBytes _ _), hashes, times, numbers]

/-- Every message is signed, and every signature of the node verifies. -/
def plainExternals : Externals :=
  { bareExternals [] (fun payload => some payload.blockHash) with
    asSszBytes := plainBytes
    fromSszBytes := fromPlainBytes }

def soleValidators (_ : Height) : ValidatorSet := [⟨3, 7, 10⟩]

/-- A node on an engine that accepts every payload, with its memory. -/
def soleNode : Node × Proposals → NodeInput → (Node × Proposals) × List StreamMessage :=
  proposingStep plainExternals (fun _ _ => .valid) sampleSignBytes (chainConfig ⟨0, 0⟩)

def soleStreams (inputs : List NodeInput) : List ConsensusBlock :=
  (outputs (nodeStep plainExternals (fun _ _ => .valid) sampleSignBytes (chainConfig ⟨0, 0⟩))
    Node.new inputs).filterMap (streamedBlock plainExternals)

/-- A value is prepared, the process dies, and another value is built after the restart. -/
def askedTwiceInputs : List NodeInput :=
  [.consensusReady (layerAt ⟨5, 0, 0, 0⟩) 0, .getValue 1 (.some 0) (.built genuinePayload), .crash,
    .consensusReady (layerAt ⟨5, 0, 0, 0⟩) 1,
    .getValue 1 (.some 0) (.built ⟨5, 1, 1001, 10, []⟩)]

theorem streams_one_block_per_round_askedTwiceInputs :
    (soleStreams askedTwiceInputs).map ConsensusBlock.key = [⟨1, .some 0, 9⟩, ⟨1, .some 0, 9⟩] ∧
      OnePerRound 3 (soleStreams askedTwiceInputs) :=
  ⟨by decide +kernel, @streams_one_block_per_round plainExternals _ _ soleValidators
    (chainConfig ⟨0, 0⟩) fromPlainBytes_plainBytes _ (by decide +kernel) (by decide +kernel)⟩

/-- Height 1 is decided; the node streams a block of height 2, a value it does not know is decided,
the height restarts, and another block is built. -/
def restartedInputs : List NodeInput :=
  [.consensusReady (layerAt ⟨5, 0, 0, 0⟩) 0,
    .processSyncedValue 1 (.some 0) 3 (plainBytes genuinePayload),
    .decided firstCertificate goodAnswers,
    .finalized firstCertificate none,
    .getValue 2 (.some 0) (.built secondPayload),
    .decided ⟨2, .some 1, 99, []⟩ goodAnswers,
    .finalized ⟨2, .some 1, 99, []⟩ none,
    .getValue 2 (.some 0) (.built ⟨9, 2, 1002, 23, []⟩)]

/-- **The restart of a height gives its round a second block**: the clean-up drops the node's own
row, so a value that is asked for again is built anew. -/
theorem restarted_height_gets_second_block :
    Along soleNode (Expected plainExternals soleValidators (chainConfig ⟨0, 0⟩))
        (Node.new, ⟨[], []⟩) restartedInputs ∧
      (soleStreams restartedInputs).map ConsensusBlock.key = [⟨2, .some 0, 22⟩, ⟨2, .some 0, 23⟩] ∧
      ¬ OnePerRound 3 (soleStreams restartedInputs) := by
  decide +kernel

end Samples

end ArcNode.App
