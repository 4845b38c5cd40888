/-
**The decided chain is hash-linked.**

Every decided payload is stored, and finalized, in its place of the chain: numbered by its height
and on top of the value decided one height below. The binding rules check the parent only against
`previous_block`, so the invariant (`ChainInv`) says where that block stands. A restarted height
reads it back from the store and loses it when payload or certificate are gone, so
**`decided_chain_is_linked`** is about runs in which every restart finds them (`RestartKnown`);
`lost_previous_block_breaks_link` is a run in which one does not.
-/

import ArcNode.App.NodeSteps

namespace ArcNode.App

open ArcNode.Lib ArcNode.Types ArcNode.Store

/-! ### The decided chain -/

section Chain

variable (valueAt : Height → BlockHash)

/-- **A payload in its place of the chain**: numbered by its height, with the hash decided there, on
top of the hash decided one height below. -/
structure Placed (height : Height) (payload : ExecutionPayload) : Prop where
  positive : 0 < height
  number : payload.blockNumber = height
  hash : payload.blockHash = valueAt height
  parent : payload.parentHash = valueAt (height.saturatingSub 1)

def OnChain (block : ExecutionBlock) : Prop := block.blockHash = valueAt block.blockNumber
  deriving Decidable

/-- Every decided payload is in its place, and every certificate is for the value of its height. -/
structure StorePlaced (db : AppDb) : Prop where
  payloads : ∀ height payload, db.decidedBlocks.get height = some payload →
    Placed valueAt height payload
  certificates : ∀ height stored, db.certificates.get height = some stored →
    stored.certificate.valueId = valueAt height

/-- Every call of `finalize_decided_block` was on a payload in its place. -/
def CallsPlaced (finalizations : List Finalization) : Prop :=
  ∀ call ∈ finalizations, Placed valueAt call.height call.payload

/-- **An execution layer on the chain**: its head is a block of the chain, and a checkpoint sync to
the tip of the store ends at the block it was sent to. -/
def ExecutionLayer.Follows (layer : ExecutionLayer) (tip : Height) : Prop :=
  (∀ head ∈ layer.latestBlock, OnChain valueAt head) ∧
    ∀ block ∈ checkpointSync layer (valueAt tip) tip,
      block.blockNumber = tip ∧ block.blockHash = valueAt tip
  deriving Decidable

end Chain

/-! ### Assumptions, condition and result -/

def NodeInput.layer : NodeInput → Option ExecutionLayer
  | consensusReady layer _ => some layer
  | _ => none

def NodeInput.decides : NodeInput → Option CommitCertificate
  | decided certificate _ => some certificate
  | crashInCommit certificate _ => some certificate
  | _ => none

def NodeInput.finalizes : NodeInput → Option CommitCertificate
  | finalized certificate _ => some certificate
  | _ => none

/-- **A restart knows the previous block**: payload and certificate of the height below are
stored. -/
def RestartKnown (node : Node) (input : NodeInput) : Prop :=
  ∀ certificate ∈ input.finalizes, ∀ state ∈ node.state, state.decision = some .failure →
    (getDecidedBlock node.world.db (certificate.height.saturatingSub 1)).join.isSome = true
  deriving Decidable

section Statement

variable (valueAt : Height → BlockHash)

/-- **What the environment keeps to**: the execution layer follows the chain, and consensus decides
the one value of the height the node works on. -/
def Assumed (node : Node) (input : NodeInput) : Prop :=
  (∀ layer ∈ input.layer, layer.Follows valueAt (node.world.db.maxHeight.getD 0)) ∧
    ∀ certificate ∈ input.decides, certificate.valueId = valueAt certificate.height ∧
      ∀ state ∈ node.state, certificate.height = state.currentHeight
  deriving Decidable

/-- **The decided chain is hash-linked.** -/
structure HashLinked (node : Node) : Prop where
  /-- A decided payload has its height as block number. -/
  numbered : ∀ height payload, node.world.db.decidedBlocks.get height = some payload →
    payload.blockNumber = height
  /-- Its parent is the decided payload of the height below, if that one is stored. -/
  linked : ∀ low high parent payload, low.increment = some high →
    node.world.db.decidedBlocks.get low = some parent →
    node.world.db.decidedBlocks.get high = some payload → payload.parentHash = parent.blockHash
  /-- A payload that is finalized extends the one finalized at the height below. -/
  extended : ∀ call ∈ node.finalizations, ∀ below ∈ node.finalizations,
    below.height.increment = some call.height →
    call.payload.parentHash = below.payload.blockHash
  /-- The first payload that is finalized extends the genesis block. -/
  genesis : ∀ call ∈ node.finalizations, call.height = 1 → call.payload.parentHash = valueAt 0

/-! ### The invariant -/

/-- The previous block is on the chain, one height below; so is the block of a decision. -/
structure StatePlaced (state : State) : Prop where
  position : ∃ previous, state.previousBlock = some previous ∧ OnChain valueAt previous ∧
    previous.blockNumber.increment = some state.currentHeight
  decision : ∀ info, state.decision = some (.success info) → OnChain valueAt info.decidedBlock ∧
    info.decidedBlock.blockNumber.increment = some info.nextHeight

/-- **Everything is in its place.** -/
structure ChainInv (node : Node) : Prop where
  store : StorePlaced valueAt node.world.db
  calls : CallsPlaced valueAt node.finalizations
  state : ∀ state ∈ node.state, StatePlaced valueAt state

end Statement

variable {payload : ExecutionPayload} {input : NodeInput} {after : Node}

section Invariant

variable {valueAt : Height → BlockHash} {node : Node} {state : State}

theorem callsPlaced_nil : CallsPlaced valueAt [] := by
  intro call member
  cases member

theorem statesPlaced_none : ∀ state ∈ (none : Option State), StatePlaced valueAt state := by
  intro state member
  cases member

theorem chainInv_new : ChainInv valueAt Node.new := by
  refine ⟨⟨?_, ?_⟩, ?_, ?_⟩
  · intro height payload found
    cases found
  · intro height stored found
    cases found
  · exact callsPlaced_nil
  · exact statesPlaced_none

theorem saturatingSub_of_increment {low high : Height} (next : low.increment = some high) :
    high.saturatingSub 1 = low := by
  rw [Height.increment_eq_some] at next
  apply Height.ext
  rw [Height.saturatingSub_val, next]
  omega

theorem Placed.onChain {height : Height}
    (placed : Placed valueAt height payload) : OnChain valueAt (.ofPayload payload) := by
  show payload.blockHash = valueAt payload.blockNumber
  rw [placed.number]
  exact placed.hash

theorem Placed.parent_of_increment {low high : Height}
    (placed : Placed valueAt high payload) (next : low.increment = some high) :
    payload.parentHash = valueAt low := by
  rw [placed.parent, saturatingSub_of_increment next]

theorem ChainInv.hashLinked (inv : ChainInv valueAt node) : HashLinked valueAt node where
  numbered height payload found := (inv.store.payloads height payload found).number
  linked low high parent payload next below found := by
    rw [(inv.store.payloads high payload found).parent_of_increment next,
      (inv.store.payloads low parent below).hash]
  extended call member below earlier next := by
    rw [(inv.calls call member).parent_of_increment next, (inv.calls below earlier).hash]
  genesis call member first := by
    rw [(inv.calls call member).parent, first]
    rfl

theorem StorePlaced.subset {before after : AppDb} (placed : StorePlaced valueAt before)
    (subset : DecidedSubset before after) : StorePlaced valueAt after where
  payloads height payload found := placed.payloads height payload (subset.payloads _ _ found)
  certificates height stored found :=
    placed.certificates height stored (subset.certificates _ _ found)

theorem ChainInv.down (inv : ChainInv valueAt node) : ChainInv valueAt node.down :=
  ⟨inv.store, inv.calls, statesPlaced_none⟩

theorem StatePlaced.move {other : State} (placed : StatePlaced valueAt state)
    (same : SamePosition state other) : StatePlaced valueAt other where
  position := by
    rw [same.previousBlock, same.currentHeight]
    exact placed.position
  decision := by
    rw [same.decision]
    exact placed.decision

theorem ChainInv.quiet (inv : ChainInv valueAt node) (running : node.state = some state)
    {E : Externals} (frame : QuietFrame E node state input after) :
    ChainInv valueAt after where
  store := inv.store.subset frame.tables.decided
  calls := frame.finalizations ▸ inv.calls
  state later member := (inv.state state running).move (frame.position later member)

end Invariant

/-! ### Decisions -/

section Decisions

variable {valueAt : Height → BlockHash} {config : NodeConfig} {node : Node} {state : State}
  {db : AppDb} {certificate : CommitCertificate}

theorem placed_of_bound {height : Height} {previous : ExecutionBlock}
    (bound : Bound payload height (some previous)) (onChain : OnChain valueAt previous)
    (next : previous.blockNumber.increment = some height)
    (hash : payload.blockHash = valueAt height) : Placed valueAt height payload where
  positive := by
    rw [Height.increment_eq_some] at next
    rw [Height.lt_def, next]
    exact Nat.succ_pos _
  number := (bound_iff.mp bound).1
  hash := hash
  parent := by
    rw [(bound_iff.mp bound).2 previous rfl next, saturatingSub_of_increment next]
    exact onChain

theorem StorePlaced.insertDecidedBlock (store : StorePlaced valueAt db) {height : Height}
    {stored : StoredCommitCertificate}
    (placed : Placed valueAt height payload) (value : stored.certificate.valueId = valueAt height) :
    StorePlaced valueAt (db.insertDecidedBlock height stored payload) := by
  refine ⟨?_, ?_⟩
  · intro other found same
    obtain ⟨rfl, rfl⟩ | old := Table.get_insert_cases same
    · exact placed
    · exact store.payloads other found old
  · intro other found same
    obtain ⟨rfl, rfl⟩ | old := Table.get_insert_cases same
    · exact value
    · exact store.certificates other found old

theorem StorePlaced.finalized {after : AppDb} (store : StorePlaced valueAt db)
    (frame : FinalizedFrame db after) : StorePlaced valueAt after where
  payloads height payload found := store.payloads height payload (frame.decidedBlocks ▸ found)
  certificates height stored found := by
    have same := frame.values height
    rw [found, Option.map_some] at same
    obtain ⟨before, there, equal⟩ := Option.map_eq_some_iff.mp same.symm
    rw [← equal]
    exact store.certificates height before there

theorem placed_of_usable (here : StatePlaced valueAt state)
    (value : certificate.valueId = valueAt certificate.height)
    (current : certificate.height = state.currentHeight) {block : ConsensusBlock}
    (usable : Decided.Usable certificate state.previousBlock block)
    (agrees : block.executionPayload.blockHash = certificate.valueId) :
    Placed valueAt certificate.height block.executionPayload := by
  obtain ⟨previous, known, onChain, next⟩ := here.position
  have bound := usable.2
  rw [known] at bound
  rw [← current] at next
  exact placed_of_bound bound onChain next (agrees.trans value)

theorem callsPlaced_singleton {height : Height}
    (placed : Placed valueAt height payload) : CallsPlaced valueAt [⟨height, payload⟩] := by
  intro call member
  rw [List.mem_singleton.mp member]
  exact placed

theorem CallsPlaced.append {first second : List Finalization} (front : CallsPlaced valueAt first)
    (back : CallsPlaced valueAt second) : CallsPlaced valueAt (first ++ second) := by
  intro call member
  rcases List.mem_append.mp member with early | late
  · exact front call early
  · exact back call late

theorem StatePlaced.failed (here : StatePlaced valueAt state) :
    StatePlaced valueAt { state with decision := some .failure } where
  position := here.position
  decision info same := by cases same

variable (inv : ChainInv valueAt node) (running : node.state = some state)

include inv running

theorem ChainInv.refuses (refused : Refuses node state after) : ChainInv valueAt after where
  store := refused.world ▸ inv.store
  calls := refused.finalizations ▸ inv.calls
  state later member := by
    rw [refused.state later member]
    exact (inv.state state running).failed

/-- **A commit stores and finalizes in place**, and the height continues on the chain. -/
theorem ChainInv.commits (value : certificate.valueId = valueAt certificate.height)
    (current : certificate.height = state.currentHeight) {validators : Option ValidatorSet}
    {row : ConsensusBlock} (commits : Commits config node state certificate validators row after) :
    ChainInv valueAt after := by
  have here := inv.state state running
  have placed := placed_of_usable here value current commits.usable commits.hash
  refine ⟨(inv.store.insertDecidedBlock placed value).subset commits.frame.tables, ?_, ?_⟩
  · rcases commits.finalizations with same | more
    · exact same ▸ inv.calls
    · exact more ▸ inv.calls.append (callsPlaced_singleton placed)
  · intro later member
    rcases commits.state later member with rfl | ⟨nextHeight, validatorSet, next, -, rfl⟩
    · exact here.failed
    · refine ⟨here.position, fun info same => ?_⟩
      rw [← Decision.success.inj (Option.some.inj same)]
      refine ⟨placed.onChain, ?_⟩
      show row.executionPayload.blockNumber.increment = some nextHeight
      rw [placed.number]
      exact next

theorem ChainInv.decision (value : certificate.valueId = valueAt certificate.height)
    (current : certificate.height = state.currentHeight)
    {validators : Option ValidatorSet} (outcome : Refuses node state after ∨
      ∃ row, Commits config node state certificate validators row after) :
    ChainInv valueAt after := by
  rcases outcome with refused | ⟨row, commits⟩
  · exact inv.refuses running refused
  · exact inv.commits running value current commits

/-! ### Finalization and restart -/

omit running in
theorem ChainInv.storeFinalized (certificate : CommitCertificate) (evidence : Option (List Byte)) :
    ChainInv valueAt (storeFinalized node certificate evidence) where
  store := inv.store.finalized (finalizedFrame_storeFinalized node certificate evidence)
  calls := inv.calls
  state := inv.state

omit running in
theorem ChainInv.restartHeight (known : (getDecidedBlock node.world.db
      (certificate.height.saturatingSub 1)).join.isSome = true)
    (evidence : Option (List Byte)) (undecided : state.decision = none) :
    ChainInv valueAt
      (restartHeight (App.storeFinalized node certificate evidence) state certificate.height) := by
  have stored := inv.storeFinalized certificate evidence
  obtain ⟨payload, found, restarts⟩ := restartHeight_known known evidence
  have placed := inv.store.payloads _ _ found
  rw [restarts]
  refine ⟨stored.store.subset (decidedSubset_cleanStaleConsensusData _ _), stored.calls, ?_⟩
  intro other member
  rw [← Option.some.inj member]
  refine ⟨⟨.ofPayload payload, rfl, placed.onChain, ?_⟩, fun info same => ?_⟩
  · show payload.blockNumber.increment = some certificate.height
    have positive := placed.positive
    rw [Height.lt_def, Height.zero_val, Height.saturatingSub_val] at positive
    rw [placed.number, Height.increment_eq_some, Height.saturatingSub_val]
    omega
  · have taken : state.decision = some (.success info) := same
    rw [undecided] at taken
    cases taken

theorem ChainInv.finalized (known : state.decision = some .failure →
      (getDecidedBlock node.world.db (certificate.height.saturatingSub 1)).join.isSome = true)
    (evidence : Option (List Byte)) :
    ChainInv valueAt (finalized config node state certificate evidence) := by
  rcases finalized_cases config node state certificate evidence with
    ⟨info, decision, moves⟩ | ⟨decision, same⟩ | ⟨-, same⟩
  · obtain ⟨onChain, next⟩ := (inv.state state running).decision info decision
    refine ⟨?_, moves.finalizations ▸ inv.calls, fun later member => ?_⟩
    · exact moves.world ▸ (inv.storeFinalized certificate evidence).store
    · rw [moves.state later member]
      exact ⟨⟨info.decidedBlock, rfl, onChain, next⟩, fun other taken => by cases taken⟩
  · rw [same]
    exact inv.restartHeight (known decision) evidence rfl
  · rw [same]
    exact inv.down

end Decisions

/-! ### The whole run -/

section Run

variable {valueAt : Height → BlockHash} {E : Externals} {engine : Engine}
  {signBytes : BlockHash → Option Signature} {config : NodeConfig} {node : Node} {state : State}

theorem onChain_of_path (store : StorePlaced valueAt node.world.db) {layer : ExecutionLayer}
    (follows : layer.Follows valueAt (latestHeightCons node.world.db))
    {head previous : ExecutionBlock} (present : layer.latestBlock = some head)
    (path : StartPath layer node.world.db head previous) : OnChain valueAt previous := by
  cases path with
  | nothing level => exact follows.1 head present
  | replayed below complete found number => exact (store.payloads _ _ found).onChain
  | synced below gap found reached =>
    rw [store.certificates _ _ found] at reached
    obtain ⟨number, hash⟩ := follows.2 _ reached
    show _ = valueAt _
    rw [number]
    exact hash

theorem ChainInv.consensusReady (inv : ChainInv valueAt node) {layer : ExecutionLayer}
    (follows : layer.Follows valueAt (node.world.db.maxHeight.getD 0)) (now : ℕ) :
    ChainInv valueAt (consensusReady engine config node layer now) := by
  obtain ⟨frame, starts⟩ := consensusReady_cases engine config node layer now
  refine ⟨inv.store.subset (.of_eq frame.decidedBlocks frame.certificates), ?_, ?_⟩
  · intro call made
    rcases frame.finalized call made with early | stored
    · exact inv.calls call early
    · exact inv.store.payloads _ _ stored
  · intro state member
    obtain ⟨head, previous, present, path, known, next⟩ := (starts state member).path
    refine ⟨⟨previous, known, onChain_of_path inv.store follows present path, next⟩, ?_⟩
    intro info same
    rw [(starts state member).decision] at same
    cases same

theorem ChainInv.runningStep (inv : ChainInv valueAt node) (running : node.state = some state)
    (assumed : Assumed valueAt node input) (known : RestartKnown node input) :
    ChainInv valueAt (runningStep E engine signBytes config node state input).1 := by
  by_cases quiet : input.quiet = true
  · exact inv.quiet running (quiet_frame running quiet)
  cases input with
  | decided certificate answers =>
    obtain ⟨value, current⟩ := assumed.2 certificate rfl
    exact inv.decision running value (current state running)
      (decided_cases config node state certificate answers)
  | crashInCommit certificate stop =>
    obtain ⟨value, current⟩ := assumed.2 certificate rfl
    exact inv.decision running value (current state running)
      (interruptedCommit_cases config node state certificate stop)
  | finalized certificate evidence =>
    exact inv.finalized running (known certificate rfl state running) evidence
  | crashInFinalized certificate evidence =>
    show ChainInv valueAt (if state.decision.isSome then _ else _)
    split_ifs
    · exact (inv.storeFinalized certificate evidence).down
    · exact inv.down
  | _ => exact absurd rfl quiet

theorem ChainInv.nodeStep (inv : ChainInv valueAt node)
    (assumed : Assumed valueAt node input) (known : RestartKnown node input) :
    ChainInv valueAt (nodeStep E engine signBytes config node input).1 := by
  unfold App.nodeStep
  cases running : node.state with
  | some state => exact inv.runningStep running assumed known
  | none =>
    cases input with
    | consensusReady layer now => exact inv.consensusReady (assumed.1 layer rfl) now
    | _ => exact inv

/-- **The decided chain is hash-linked** after every step of every run from an empty store, as long
as every restarted height finds the decided block below it. -/
theorem decided_chain_is_linked {inputs : List NodeInput}
    (assumed : Along (nodeStep E engine signBytes config) (Assumed valueAt) Node.new inputs)
    (known : Along (nodeStep E engine signBytes config) RestartKnown Node.new inputs) :
    Along (nodeStep E engine signBytes config) (fun before input =>
      HashLinked valueAt (nodeStep E engine signBytes config before input).1) Node.new inputs :=
  along_of_invariant (fun _ _ inv meets => inv.nodeStep meets.1 meets.2)
    (fun _ _ inv meets => (inv.nodeStep meets.1 meets.2).hashLinked) chainInv_new
    (assumed.and known)

end Run

section Samples

/-- A chain of two heights over the genesis hash 5. -/
def sampleChain (height : Height) : BlockHash :=
  if height = 0 then 5 else if height = 1 then 9 else if height = 2 then 22 else 0

/-- The payload of height 2 on top of that of height 1, and one on top of another block. -/
def secondPayload : ExecutionPayload := ⟨9, 2, 1001, 22, []⟩

def strayPayload : ExecutionPayload := ⟨77, 2, 1001, 22, []⟩

def chainExternals : Externals := bareExternals [] fun payload => some payload.blockHash

theorem chainConfig_positive : 0 < 4 := by decide

def chainConfig (prune : PruningConfig) : NodeConfig := ⟨prune, 3, 4, chainConfig_positive, none⟩

/-- A node on an engine that accepts every payload. -/
def chainStep (prune : PruningConfig) : Node → NodeInput → Node × List StreamMessage :=
  nodeStep chainExternals (fun _ _ => .valid) (fun _ => none) (chainConfig prune)

def firstCertificate : CommitCertificate := ⟨1, .some 0, 9, []⟩

def secondCertificate : CommitCertificate := ⟨2, .some 0, 22, []⟩

def goodAnswers : DecidedAnswers := ⟨true, some [⟨3, 7, 10⟩]⟩

/-- Height 1 is decided; height 2 is decided before its payload is known, and restarts. -/
def restartInputs : List NodeInput :=
  [.consensusReady (layerAt ⟨5, 0, 0, 0⟩) 0,
    .processSyncedValue 1 (.some 0) 3 (bareSszBytes genuinePayload),
    .decided firstCertificate goodAnswers,
    .finalized firstCertificate none,
    .decided secondCertificate goodAnswers,
    .finalized secondCertificate none]

/-- The payload of height 2 is decided, the process dies before it is finalized, and the next start
replays it. -/
def replayInputs : List NodeInput :=
  restartInputs ++ [.processSyncedValue 2 (.some 0) 3 (bareSszBytes secondPayload),
      .crashInCommit secondCertificate .cleaned,
      .consensusReady (layerAt ⟨9, 1, 5, 1000⟩) 1]

theorem decided_chain_is_linked_replayInputs :
    (run (chainStep ⟨0, 0⟩) Node.new replayInputs).finalizations =
        [⟨1, genuinePayload⟩, ⟨2, secondPayload⟩] ∧
      Along (chainStep ⟨0, 0⟩) (fun before input =>
        HashLinked sampleChain (chainStep ⟨0, 0⟩ before input).1) Node.new replayInputs :=
  ⟨by decide +kernel, decided_chain_is_linked (by decide +kernel) (by decide +kernel)⟩

/-- A payload on top of another block is decided at height 2 after the restart. -/
def strayInputs : List NodeInput :=
  restartInputs ++ [.processSyncedValue 2 (.some 0) 3 (bareSszBytes strayPayload),
      .decided secondCertificate goodAnswers]

/-- **A restart that loses the previous block breaks the link**: with certificates pruned below
height 100 the restart of height 2 has nothing to bind the payload to. -/
theorem lost_previous_block_breaks_link :
    Along (chainStep ⟨0, 100⟩) (Assumed sampleChain) Node.new strayInputs ∧
      (run (chainStep ⟨0, 100⟩) Node.new strayInputs).finalizations =
        [⟨1, genuinePayload⟩, ⟨2, strayPayload⟩] ∧
      ¬ HashLinked sampleChain (run (chainStep ⟨0, 100⟩) Node.new strayInputs) := by
  refine ⟨by decide +kernel, by decide +kernel, fun linked => ?_⟩
  have parent : strayPayload.parentHash = genuinePayload.blockHash :=
    linked.linked 1 2 genuinePayload strayPayload (by decide) (by decide +kernel)
      (by decide +kernel)
  exact absurd parent (by decide)

end Samples

end ArcNode.App
