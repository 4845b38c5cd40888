/-
**The seven tables of the consensus database.**

`Db S` holds five tables keyed by height and two keyed by (height, round, hash). The types of the
values are a parameter `S : Schema`, so the maintenance operations of this module (they read keys
only) are the same functions on the raw records of the file and on the values they decode to.
-/

import ArcNode.Lib.OrderedTable
import ArcNode.Types.Block

namespace ArcNode.Store

open ArcNode.Lib ArcNode.Types

/-- The types of the values of the seven tables. -/
structure Schema where
  Certificate : Type
  DecidedBlock : Type
  InvalidPayloads : Type
  MisbehaviorEvidence : Type
  ProposalMonitor : Type
  UndecidedBlock : Type
  PendingParts : Type

abbrev Schema.raw : Schema :=
  ⟨List Byte, List Byte, List Byte, List Byte, List Byte, List Byte, List Byte⟩

/-- The content of the database. -/
@[ext] structure Db (S : Schema) where
  certificates : Table Height S.Certificate
  decidedBlocks : Table Height S.DecidedBlock
  invalidPayloads : Table Height S.InvalidPayloads
  misbehaviorEvidence : Table Height S.MisbehaviorEvidence
  proposalMonitorData : Table Height S.ProposalMonitor
  undecidedBlocks : Table BlockKey S.UndecidedBlock
  pendingProposalParts : Table BlockKey S.PendingParts

namespace Db

variable {S : Schema}

/-- The database `create_tables` makes. -/
def empty : Db S := ⟨∅, ∅, ∅, ∅, ∅, ∅, ∅⟩

instance : EmptyCollection (Db S) := ⟨empty⟩

variable (db : Db S)

/-- `max_height`: the largest height with a certificate. -/
def maxHeight : Option Height := db.certificates.last.map Prod.fst

def heights : List Height :=
  db.certificates.keys ++ db.decidedBlocks.keys ++ db.invalidPayloads.keys ++
    db.misbehaviorEvidence.keys ++ db.proposalMonitorData.keys ++
    db.undecidedBlocks.keys.map BlockKey.height ++ db.pendingProposalParts.keys.map BlockKey.height

/-- The entries at or below a height, in every table. -/
def upTo (target : Height) : Db S where
  certificates := db.certificates.retain fun height _ => height ≤ target
  decidedBlocks := db.decidedBlocks.retain fun height _ => height ≤ target
  invalidPayloads := db.invalidPayloads.retain fun height _ => height ≤ target
  misbehaviorEvidence := db.misbehaviorEvidence.retain fun height _ => height ≤ target
  proposalMonitorData := db.proposalMonitorData.retain fun height _ => height ≤ target
  undecidedBlocks := db.undecidedBlocks.retain fun key _ => key.height ≤ target
  pendingProposalParts := db.pendingProposalParts.retain fun key _ => key.height ≤ target

/-- `insert_decided_block`: payload and certificate in one transaction. -/
def insertDecidedBlock (height : Height) (certificate : S.Certificate)
    (payload : S.DecidedBlock) : Db S :=
  { db with
    decidedBlocks := db.decidedBlocks.insert height payload
    certificates := db.certificates.insert height certificate }

/-- `clean_stale_consensus_data`: undecided blocks and pending parts up to a height go. -/
def cleanStaleConsensusData (current : Height) : Db S :=
  { db with
    undecidedBlocks := db.undecidedBlocks.retain fun key _ => current < key.height
    pendingProposalParts := db.pendingProposalParts.retain fun key _ => current < key.height }

theorem lt_of_mem_cleanStaleConsensusData {db : Db S} {current : Height} {key : BlockKey}
    (member : key ∈ (db.cleanStaleConsensusData current).undecidedBlocks.keys ∨
      key ∈ (db.cleanStaleConsensusData current).pendingProposalParts.keys) :
    current < key.height := by
  rcases member with undecided | pending
  · obtain ⟨entry, kept, rfl⟩ := List.mem_map.mp undecided
    exact of_decide_eq_true (Table.mem_retain.mp kept).2
  · obtain ⟨entry, kept, rfl⟩ := List.mem_map.mp pending
    exact of_decide_eq_true (Table.mem_retain.mp kept).2

theorem maxHeight_eq_some {db : Db S} {height : Height} : db.maxHeight = some height ↔
      (db.certificates.get height).isSome ∧ ∀ other ∈ db.certificates.keys, other ≤ height := by
  rw [maxHeight, Option.map_eq_some_iff]
  constructor
  · rintro ⟨entry, last, rfl⟩
    obtain ⟨member, bound⟩ := Table.last_eq_some.mp last
    refine ⟨Option.isSome_iff_exists.mpr ⟨_, Table.get_eq_some.mpr member⟩, ?_⟩
    intro other present
    obtain ⟨found, inside, rfl⟩ := List.mem_map.mp present
    exact bound found inside
  · rintro ⟨present, bound⟩
    obtain ⟨value, found⟩ := Option.isSome_iff_exists.mp present
    refine ⟨(height, value), Table.last_eq_some.mpr ⟨Table.get_eq_some.mp found, ?_⟩, rfl⟩
    exact fun other member => bound other.1 (List.mem_map_of_mem member)

theorem maxHeight_eq_none {db : Db S} :
    db.maxHeight = none ↔ ∀ height, db.certificates.get height = none := by
  rw [maxHeight, Option.map_eq_none_iff, Table.last_eq_none]
  constructor
  · intro nothing height
    rw [Table.get_eq_none, nothing]
    exact fun _ => List.not_mem_nil
  · intro absent
    refine List.eq_nil_iff_forall_not_mem.mpr fun entry member => ?_
    have := Table.get_eq_some.mpr member
    rw [absent] at this
    cases this

end Db

end ArcNode.Store
