/-
**The decision of a height.**

A commit certificate names a height and the hash of a value, not the round in which the node
received it, so `decide` looks the block up by height and hash and takes the first row in key order
(**`getUndecidedBlockByHeightAndBlockHash_eq_some`**: the row of the earliest round). It checks the
binding and the stored verdict of that row only. Hence **`decide_adopts_iff`**: a certificate whose
block the node holds as valid is adopted exactly when the row of the earliest round is usable.
-/

import ArcNode.Store.Pruning
import ArcNode.App.Verdicts

namespace ArcNode.App

open ArcNode.Lib ArcNode.Types ArcNode.Store

/-- `get_undecided_block_by_height_and_block_hash`: of all rounds, the first row in key order. -/
def getUndecidedBlockByHeightAndBlockHash (db : AppDb) (height : Height) (blockHash : BlockHash) :
    Option ConsensusBlock :=
  (db.undecidedBlocks.findFirst fun key =>
    key.height = height ∧ key.hash = blockHash).map Prod.snd

structure Finalization where
  height : Height
  payload : ExecutionPayload
  deriving DecidableEq

namespace Decided

/-- Why a decision fails; `unbound` halts the node, the others restart the height. -/
inductive DecideError where
  | cannotFind
  | unbound (error : PayloadBindingError)
  | markedInvalid
  | notFinalized
  deriving DecidableEq

structure Outcome where
  db : AppDb
  /-- `commit_ack` was sent. -/
  acknowledged : Bool
  finalizations : List Finalization
  result : Except DecideError ExecutionBlock

def refused (db : AppDb) (error : DecideError) : Outcome := ⟨db, false, [], .error error⟩

section Handler

variable (config : PruningConfig) (db : AppDb) (certificate : CommitCertificate)

/-- `commit`: store, acknowledge, clean up, finalize, prune; `none` is the failed assertion of
`DecidedBlock::new`. -/
def commit (block : ConsensusBlock) (finalizes : Bool) : Option Outcome := do
  let decided ← DecidedBlock.new block.executionPayload certificate
  some
    { db := Store.commit config db
        ⟨decided.height, ⟨certificate, .minimal, some block.proposer⟩, block.executionPayload,
          finalizes⟩
      acknowledged := true
      finalizations := [⟨certificate.height, block.executionPayload⟩]
      result := if finalizes then .ok (.ofPayload block.executionPayload)
        else .error .notFinalized }

def decide (previousBlock : Option ExecutionBlock) (finalizes : Bool) : Option Outcome :=
  match getUndecidedBlockByHeightAndBlockHash db certificate.height certificate.valueId with
  | none => some (refused db .cannotFind)
  | some block =>
    match checkPayloadBinding block.executionPayload certificate.height previousBlock with
    | .error error => some (refused db (.unbound error))
    | .ok _ =>
      if block.validity.isValid then commit config db certificate block finalizes
      else some (refused db .markedInvalid)

end Handler

/-! ### The row that is decided -/

section Rows

variable (db : AppDb) (certificate : CommitCertificate) (previousBlock : Option ExecutionBlock)

/-- A row of the value a certificate decides, in some round. -/
def Held (key : BlockKey) (row : ConsensusBlock) : Prop :=
  db.undecidedBlocks.get key = some row ∧ key.height = certificate.height ∧
    key.hash = certificate.valueId

/-- The row is marked valid, and its payload is bound to its place in the chain. -/
def Usable (row : ConsensusBlock) : Prop :=
  row.validity = .valid ∧ Bound row.executionPayload certificate.height previousBlock
  deriving Decidable

def HoldsUsable : Prop :=
  ∃ key row, Held db certificate key row ∧ Usable certificate previousBlock row

def EarliestUsable : Prop :=
  ∀ key row, Held db certificate key row →
    (∀ other stored, Held db certificate other stored → key.round ≤ other.round) →
    Usable certificate previousBlock row

/-- **The certificate is adopted**: the decision is the commit of a usable row. -/
def Adopts (config : PruningConfig) (finalizes : Bool) : Prop :=
  ∃ key row, Held db certificate key row ∧ Usable certificate previousBlock row ∧
    decide config db certificate previousBlock finalizes =
      commit config db certificate row finalizes

end Rows

section Spec

variable {config : PruningConfig} {db : AppDb} {certificate : CommitCertificate}
  {previousBlock : Option ExecutionBlock} {finalizes : Bool} {row : ConsensusBlock}

theorem le_iff_round_le {first second : BlockKey} (heights : first.height = second.height)
    (hashes : first.hash = second.hash) : first ≤ second ↔ first.round ≤ second.round := by
  rw [← not_lt, ← not_lt, BlockKey.lt_def]
  simp [heights, hashes]

/-- **The row found is that of the earliest round.** -/
theorem getUndecidedBlockByHeightAndBlockHash_eq_some :
    getUndecidedBlockByHeightAndBlockHash db certificate.height certificate.valueId = some row ↔
      ∃ key, Held db certificate key row ∧
        ∀ other stored, Held db certificate other stored → key.round ≤ other.round := by
  unfold getUndecidedBlockByHeightAndBlockHash
  rw [Option.map_eq_some_iff]
  constructor
  · rintro ⟨⟨key, found⟩, first, rfl⟩
    obtain ⟨member, wanted, least⟩ := Table.findFirst_eq_some.mp first
    obtain ⟨height, hash⟩ := of_decide_eq_true wanted
    refine ⟨key, ⟨Table.get_eq_some.mpr member, height, hash⟩, ?_⟩
    rintro other stored ⟨present, otherHeight, otherHash⟩
    have below := least (other, stored) (Table.get_eq_some.mp present)
      (decide_eq_true ⟨otherHeight, otherHash⟩)
    exact (le_iff_round_le (height.trans otherHeight.symm) (hash.trans otherHash.symm)).mp below
  · rintro ⟨key, ⟨found, height, hash⟩, earliest⟩
    refine ⟨(key, row), Table.findFirst_eq_some.mpr ⟨Table.get_eq_some.mp found,
      decide_eq_true ⟨height, hash⟩, ?_⟩, rfl⟩
    intro other member wanted
    obtain ⟨otherHeight, otherHash⟩ := of_decide_eq_true wanted
    exact (le_iff_round_le (height.trans otherHeight.symm) (hash.trans otherHash.symm)).mpr
      (earliest other.1 other.2 ⟨Table.get_eq_some.mpr member, otherHeight, otherHash⟩)

theorem getUndecidedBlockByHeightAndBlockHash_eq_none :
    getUndecidedBlockByHeightAndBlockHash db certificate.height certificate.valueId = none ↔
      ∀ key row, ¬ Held db certificate key row := by
  unfold getUndecidedBlockByHeightAndBlockHash
  rw [Option.map_eq_none_iff, Table.findFirst_eq_none]
  constructor
  · rintro nothing key row ⟨found, height, hash⟩
    exact nothing (key, row) (Table.get_eq_some.mp found) (decide_eq_true ⟨height, hash⟩)
  · rintro nothing ⟨key, row⟩ member wanted
    obtain ⟨height, hash⟩ := of_decide_eq_true wanted
    exact nothing key row ⟨Table.get_eq_some.mpr member, height, hash⟩

theorem eq_of_earliest {first second : BlockKey} {row other : ConsensusBlock}
    (here : Held db certificate first row) (there : Held db certificate second other)
    (early : first.round ≤ second.round) (late : second.round ≤ first.round) : row = other := by
  have same : first = second := BlockKey.ext (here.2.1.trans there.2.1.symm)
    (le_antisymm early late) (here.2.2.trans there.2.2.symm)
  have found := here.1
  rw [same, there.1] at found
  exact (Option.some.inj found).symm

theorem decide_of_usable (usable : Usable certificate previousBlock row)
    (found : getUndecidedBlockByHeightAndBlockHash db certificate.height certificate.valueId =
      some row) :
    decide config db certificate previousBlock finalizes =
      commit config db certificate row finalizes := by
  have bound : checkPayloadBinding row.executionPayload certificate.height previousBlock =
    .ok () := usable.2
  unfold decide
  simp only [found, bound, Validity.isValid_iff, if_pos usable.1]

theorem decide_of_not_usable (config : PruningConfig) (finalizes : Bool)
    (unusable : ¬ Usable certificate previousBlock row)
    (found : getUndecidedBlockByHeightAndBlockHash db certificate.height certificate.valueId =
      some row) :
    ∃ error, decide config db certificate previousBlock finalizes = some (refused db error) := by
  unfold decide
  simp only [found]
  cases checked : checkPayloadBinding row.executionPayload certificate.height previousBlock with
  | error error => exact ⟨.unbound error, rfl⟩
  | ok passed =>
    have marked : ¬ row.validity.isValid = true := fun valid =>
      unusable ⟨Validity.isValid_iff.mp valid, checked⟩
    exact ⟨.markedInvalid, if_neg marked⟩

theorem commit_eq_some {outcome : Outcome}
    (commits : commit config db certificate row finalizes = some outcome) :
    row.executionPayload.blockHash = certificate.valueId ∧ outcome =
      ⟨Store.commit config db ⟨certificate.height, ⟨certificate, .minimal, some row.proposer⟩,
          row.executionPayload, finalizes⟩, true, [⟨certificate.height, row.executionPayload⟩],
        if finalizes then .ok (.ofPayload row.executionPayload) else .error .notFinalized⟩ := by
  unfold commit DecidedBlock.new at commits
  by_cases agrees : row.executionPayload.blockHash = certificate.valueId
  · rw [dif_pos agrees] at commits
    exact ⟨agrees, (Option.some.inj commits).symm⟩
  · rw [dif_neg agrees] at commits
    cases commits

theorem decide_eq_some {outcome : Outcome}
    (decides : decide config db certificate previousBlock finalizes = some outcome) :
    (∃ block, Usable certificate previousBlock block ∧
        commit config db certificate block finalizes = some outcome) ∨
      ∃ error, outcome = refused db error := by
  cases found : getUndecidedBlockByHeightAndBlockHash db certificate.height certificate.valueId with
  | none =>
    unfold decide at decides
    simp only [found, Option.some.injEq] at decides
    exact .inr ⟨.cannotFind, decides.symm⟩
  | some block =>
    by_cases usable : Usable certificate previousBlock block
    · exact .inl ⟨block, usable, (decide_of_usable usable found).symm.trans decides⟩
    · obtain ⟨error, refuses⟩ := decide_of_not_usable config finalizes usable found
      exact .inr ⟨error, Option.some.inj (decides.symm.trans refuses)⟩

theorem commit_ne_refused {block : ConsensusBlock} {error : DecideError} :
    commit config db certificate block finalizes ≠ some (refused db error) := by
  intro same
  obtain ⟨-, stored⟩ := commit_eq_some same
  cases congrArg Outcome.acknowledged stored

/-- **A value held as valid is adopted exactly when its earliest row is usable.** -/
theorem decide_adopts_iff (config : PruningConfig) (db : AppDb) (certificate : CommitCertificate)
    (previousBlock : Option ExecutionBlock) (finalizes : Bool) :
    (HoldsUsable db certificate previousBlock →
        Adopts db certificate previousBlock config finalizes) ↔
      (HoldsUsable db certificate previousBlock → EarliestUsable db certificate previousBlock) := by
  refine forall_congr' fun holds => ?_
  obtain ⟨someKey, someRow, present, -⟩ := holds
  cases found : getUndecidedBlockByHeightAndBlockHash db certificate.height certificate.valueId with
  | none =>
    exact absurd present (getUndecidedBlockByHeightAndBlockHash_eq_none.mp found someKey someRow)
  | some first =>
    obtain ⟨firstKey, held, earliest⟩ := getUndecidedBlockByHeightAndBlockHash_eq_some.mp found
    constructor
    · rintro ⟨_, adopted, -, -, commits⟩ key row here least
      have usable : Usable certificate previousBlock first := by
        by_contra unusable
        obtain ⟨error, refuses⟩ := decide_of_not_usable config finalizes unusable found
        exact commit_ne_refused (commits.symm.trans refuses)
      rwa [eq_of_earliest here held (least _ _ held) (earliest _ _ here)]
    · intro early
      have usable := early firstKey first held earliest
      exact ⟨firstKey, first, held, usable, decide_of_usable usable found⟩

end Spec

section TwoRounds

/-- The forged block of round 0 as pending parts, then the genuine one of round 1 through sync. -/
def twoRoundsInputs : List IngestInput :=
  [.pendingParts sampleContext forgedParts,
    .syncedValue sampleContext 1 (.some 1) 3 (bareSszBytes genuinePayload)]

def twoRoundsDb : AppDb :=
  (run (ingestStep forgedExternals strictEngine) ⟨∅, []⟩ twoRoundsInputs).db

def genuineCertificate : CommitCertificate := ⟨1, .some 1, 9, []⟩

/-- **A rejected block of an earlier round blocks the decision**: the node holds the genuine block
as valid in round 1, but finds the forged row of round 0 and refuses to finalize it. -/
theorem forged_row_blocks_decision : HoldsUsable twoRoundsDb genuineCertificate none ∧
      (decide ⟨0, 0⟩ twoRoundsDb genuineCertificate none true).map Outcome.result =
        some (.error .markedInvalid) ∧
      ¬ (HoldsUsable twoRoundsDb genuineCertificate none →
        Adopts twoRoundsDb genuineCertificate none ⟨0, 0⟩ true) := by
  have holds : HoldsUsable twoRoundsDb genuineCertificate none := by
    refine ⟨⟨1, .some 1, 9⟩, syncedBlock 1 (.some 1) 3 genuinePayload, ⟨?_, rfl, rfl⟩, ?_⟩
    · decide +kernel
    · decide +kernel
  have found : getUndecidedBlockByHeightAndBlockHash twoRoundsDb genuineCertificate.height
      genuineCertificate.valueId = some { forgedBlock with validity := .invalid } := by
    decide +kernel
  have unusable : ¬ Usable genuineCertificate none { forgedBlock with validity := .invalid } := by
    decide +kernel
  refine ⟨holds, by decide +kernel, fun adopts => ?_⟩
  obtain ⟨_, row, -, -, commits⟩ := adopts holds
  obtain ⟨error, refuses⟩ := decide_of_not_usable ⟨0, 0⟩ true unusable found
  exact commit_ne_refused (commits.symm.trans refuses)

end TwoRounds

end Decided

end ArcNode.App
