/-
**Pruning after a commit.**

A commit stores the decided payload with its certificate, cleans up the undecided data of the height
and prunes: historical certificates below the configured height, decided payloads below the amnesia
window, at most `pruneBatchLimit` of each. A batch removes a final segment's complement
(**`pruneHeightTableBatch_suffix`**: what stays is closed upward), so certificate heights stay
contiguous; nothing bounds the absolute setting `certificatesBefore` by the chain tip, so a commit
below that setting prunes its own certificate.
-/

import ArcNode.Lib.Machine
import ArcNode.Store.Db

namespace ArcNode.Store

open ArcNode.Lib ArcNode.Types

variable {S : Schema}

/-! ### Configuration -/

/-- Which certificates to keep; zero disables a setting. -/
structure PruningConfig where
  certificatesDistance : Fin (2 ^ 64)
  certificatesBefore : Height
  deriving DecidableEq

variable (config : PruningConfig)

def PruningConfig.enabled : Bool :=
  0 < config.certificatesDistance ∨ 0 < config.certificatesBefore

def PruningConfig.effectiveCertificatesMinHeight (current : Height) : Height :=
  if 0 < config.certificatesBefore then config.certificatesBefore
  else if 0 < config.certificatesDistance then
    current.saturatingSub config.certificatesDistance.val
  else 0

theorem PruningConfig.effectiveCertificatesMinHeight_le {config : PruningConfig} {current : Height}
    (bounded : config.certificatesBefore ≤ current) :
    config.effectiveCertificatesMinHeight current ≤ current := by
  unfold effectiveCertificatesMinHeight
  split_ifs with before distance
  · exact bounded
  · exact Height.le_def.mpr (Nat.sub_le _ _)
  · exact Height.zero_le _

/-! ### One batch -/

/-- Entries pruned from one table in one call. -/
def pruneBatchLimit : ℕ := 300

/-- Decided payloads kept below the tip, to recover from an execution client that lost blocks. -/
def rethAmnesiaHeightCount : ℕ := 10000

/-- The keys a batch removes: the first ones below the retain height. -/
def staleKeys {V : Type} (table : Table Height V) (retain : Height) : List Height :=
  (table.keys.filter fun height => height < retain).take pruneBatchLimit

/-- `prune_height_table_batch`, with the heights it removed. -/
def pruneHeightTableBatch {V : Type} (table : Table Height V) (retain : Height) :
    Table Height V × List Height :=
  ((staleKeys table retain).foldl Table.remove table, staleKeys table retain)

section Batch

variable {V : Type} {table : Table Height V} {retain height : Height}

theorem get_foldl_remove (removed : List Height) : (removed.foldl Table.remove table).get height =
      if height ∈ removed then none else table.get height := by
  induction removed generalizing table with
  | nil => rfl
  | cons head rest ih =>
    rw [List.foldl_cons, ih, Table.get_remove]
    by_cases later : height ∈ rest
    · simp [later]
    · by_cases same : height = head
      · simp [same]
      · simp [later, same]

theorem lt_of_mem_staleKeys (stale : height ∈ staleKeys table retain) : height < retain := by
  have member := (List.mem_filter.mp (List.mem_of_mem_take stale)).2
  simpa using member

theorem get_pruneHeightTableBatch_of_le (kept : retain ≤ height) :
    (pruneHeightTableBatch table retain).1.get height = table.get height := by
  have fresh : height ∉ staleKeys table retain := fun stale =>
    absurd (lt_of_mem_staleKeys stale) (not_lt.mpr kept)
  rw [pruneHeightTableBatch, get_foldl_remove, if_neg fresh]

theorem get_of_get_pruned {value : V}
    (found : (pruneHeightTableBatch table retain).1.get height = some value) :
    table.get height = some value := by
  rw [pruneHeightTableBatch, get_foldl_remove] at found
  split_ifs at found with stale
  exact found

theorem mem_keys_of_mem_pruned
    (member : height ∈ (pruneHeightTableBatch table retain).1.keys) : height ∈ table.keys := by
  obtain ⟨value, found⟩ := Option.isSome_iff_exists.mp (Table.mem_keys.mp member)
  exact Table.mem_keys.mpr (Option.isSome_iff_exists.mpr ⟨value, get_of_get_pruned found⟩)

/-- **What a batch leaves is closed upward.** The batch takes the smallest keys first, so a key that
stays keeps every larger key. -/
theorem pruneHeightTableBatch_suffix {low : Height}
    (stays : low ∈ (pruneHeightTableBatch table retain).1.keys) (above : low ≤ height)
    (present : height ∈ table.keys) : height ∈ (pruneHeightTableBatch table retain).1.keys := by
  have lowPresent := mem_keys_of_mem_pruned stays
  rw [Table.mem_keys, pruneHeightTableBatch, get_foldl_remove] at stays ⊢
  have lowFresh : low ∉ staleKeys table retain := fun stale => by simp [stale] at stays
  have fresh : height ∉ staleKeys table retain := by
    intro stale
    have lowStale : low ∈ table.keys.filter fun key => key < retain := by
      rw [List.mem_filter]
      exact ⟨lowPresent, by simpa using above.trans_lt (lt_of_mem_staleKeys stale)⟩
    rw [← List.take_append_drop pruneBatchLimit (table.keys.filter _), List.mem_append] at lowStale
    have later := lowStale.resolve_left lowFresh
    have ordered : (table.keys.filter fun key => key < retain).Pairwise (· < ·) :=
      (List.pairwise_map.mpr table.sorted).filter _
    rw [← List.take_append_drop pruneBatchLimit (table.keys.filter _),
      List.pairwise_append] at ordered
    exact absurd (ordered.2.2 height stale low later) (not_lt.mpr above)
  rw [if_neg fresh]
  exact Table.mem_keys.mp present

/-- **A table trimmed from below**: it lost entries, none at or above `tip`, smaller ones first. -/
structure Trimmed (before after : Table Height V) (tip : Height) : Prop where
  kept : ∀ height, tip ≤ height → after.get height = before.get height
  shrinks : ∀ height ∈ after.keys, height ∈ before.keys
  suffix : ∀ low ∈ after.keys, ∀ height, low ≤ height → height ∈ before.keys → height ∈ after.keys

theorem Trimmed.refl (table : Table Height V) (tip : Height) : Trimmed table table tip :=
  ⟨fun _ _ => rfl, fun _ member => member, fun _ _ _ _ member => member⟩

theorem trimmed_pruneHeightTableBatch {tip : Height} (below : retain ≤ tip) :
    Trimmed table (pruneHeightTableBatch table retain).1 tip where
  kept _ above := get_pruneHeightTableBatch_of_le (below.trans above)
  shrinks _ member := mem_keys_of_mem_pruned member
  suffix _ stays _ above present := pruneHeightTableBatch_suffix stays above present

end Batch

/-! ### Commit -/

variable (db : Db S)

/-- `prune_historical_certs` of the pruning service: the certificates and the diagnostic tables. -/
def pruneHistoricalCerts (latest : Height) : Db S :=
  if config.enabled then
    let retain := config.effectiveCertificatesMinHeight latest
    { db with
      certificates := (pruneHeightTableBatch db.certificates retain).1
      proposalMonitorData := (pruneHeightTableBatch db.proposalMonitorData retain).1
      misbehaviorEvidence := (pruneHeightTableBatch db.misbehaviorEvidence retain).1
      invalidPayloads := (pruneHeightTableBatch db.invalidPayloads retain).1 }
  else db

/-- `prune_blocks`: the decided payloads below the amnesia window of the tip. -/
def pruneBlocks : Db S :=
  let current := db.maxHeight.getD 0
  let retain := current.saturatingSub rethAmnesiaHeightCount
  { db with decidedBlocks := (pruneHeightTableBatch db.decidedBlocks retain).1 }

/-- What a commit is given, and whether the engine finalizes the payload. -/
structure Commit (S : Schema) where
  height : Height
  certificate : S.Certificate
  payload : S.DecidedBlock
  finalizes : Bool

variable (decision : Commit S)

/-- The database part of `commit`: a finalization that fails returns before the pruning. -/
def commit : Db S :=
  let stored := db.insertDecidedBlock decision.height decision.certificate decision.payload
  let cleaned := stored.cleanStaleConsensusData decision.height
  if decision.finalizes then
    pruneBlocks (pruneHistoricalCerts config cleaned decision.height)
  else cleaned

def commitStep : Db S × Unit :=
  (commit config db decision, ())

/-- The certificate heights have no hole below the tip. -/
def Contiguous : Prop :=
  ∀ tip ∈ db.maxHeight, ∀ low ∈ db.certificates.keys, ∀ height, low ≤ height → height ≤ tip →
    height ∈ db.certificates.keys

/-- **A commit keeps its tip.** Its certificate and payload are stored, its height is the largest
one, and the certificate heights are one interval that ends there. -/
structure TipKept (after : Db S) (decision : Commit S) : Prop where
  certificate : after.certificates.get decision.height = some decision.certificate
  payload : after.decidedBlocks.get decision.height = some decision.payload
  maxHeight : after.maxHeight = some decision.height
  interval : ∀ low ∈ after.certificates.keys, ∀ height, low ≤ height → height ≤ decision.height →
    height ∈ after.certificates.keys

/-- The commit continues the chain, and the absolute setting is not above it. -/
def ContinuesTip : Prop :=
  (∀ tip ∈ db.maxHeight, tip.val + 1 = decision.height.val) ∧
    config.certificatesBefore ≤ decision.height

section Commit

variable {config : PruningConfig} {db : Db S} {decision : Commit S}

theorem le_of_mem_insert (continues : ContinuesTip config db decision) {height : Height}
    (member : height ∈ (db.certificates.insert decision.height decision.certificate).keys) :
    height ≤ decision.height := by
  rw [Table.mem_keys, Table.get_insert] at member
  split_ifs at member with same
  · exact same.le
  · cases found : db.maxHeight with
    | none =>
      rw [Db.maxHeight_eq_none.mp found] at member
      cases member
    | some tip =>
      have bound := (Db.maxHeight_eq_some.mp found).2 height (Table.mem_keys.mpr member)
      have next := continues.1 tip found
      rw [Height.le_def] at bound ⊢
      omega

theorem trimmed_pruneHistoricalCerts (db : Db S) {latest : Height}
    (bounded : config.certificatesBefore ≤ latest) :
    Trimmed db.certificates (pruneHistoricalCerts config db latest).certificates latest := by
  unfold pruneHistoricalCerts
  split_ifs with enabled
  · exact trimmed_pruneHeightTableBatch
      (PruningConfig.effectiveCertificatesMinHeight_le bounded)
  · exact Trimmed.refl _ _

theorem trimmed_certificates_commit (db : Db S)
    (bounded : config.certificatesBefore ≤ decision.height) :
    Trimmed (db.certificates.insert decision.height decision.certificate)
      (commit config db decision).certificates decision.height := by
  unfold commit
  cases decision.finalizes with
  | false => exact Trimmed.refl _ _
  | true =>
    exact trimmed_pruneHistoricalCerts (Db.cleanStaleConsensusData (db.insertDecidedBlock
      decision.height decision.certificate decision.payload) decision.height) bounded

theorem decidedBlocks_pruneHistoricalCerts (latest : Height) :
    (pruneHistoricalCerts config db latest).decidedBlocks = db.decidedBlocks := by
  unfold pruneHistoricalCerts
  split_ifs <;> rfl

/-- The amnesia window ends at the tip, and the tip is not above the committed height. -/
theorem get_decidedBlocks_commit (continues : ContinuesTip config db decision) :
    (commit config db decision).decidedBlocks.get decision.height = some decision.payload := by
  unfold commit
  cases decision.finalizes with
  | false => exact Table.get_insert_self _ _ _
  | true =>
    rw [if_pos rfl]
    generalize prepared : pruneHistoricalCerts config _ decision.height = trimmed
    have bound : trimmed.maxHeight.getD 0 ≤ decision.height := by
      cases found : trimmed.maxHeight with
      | none => exact Height.zero_le _
      | some tip =>
        have present := Table.mem_keys.mpr (Db.maxHeight_eq_some.mp found).1
        rw [← prepared] at present
        exact le_of_mem_insert continues
          ((trimmed_pruneHistoricalCerts _ continues.2).shrinks tip present)
    have below : (trimmed.maxHeight.getD 0).saturatingSub rethAmnesiaHeightCount ≤
        decision.height := le_trans (Height.le_def.mpr (Nat.sub_le _ _)) bound
    unfold pruneBlocks
    rw [get_pruneHeightTableBatch_of_le below, ← prepared, decidedBlocks_pruneHistoricalCerts]
    exact Table.get_insert_self _ _ _

theorem tipKept_commit (contiguous : Contiguous db) (continues : ContinuesTip config db decision) :
    TipKept (commit config db decision) decision := by
  have trimmed := trimmed_certificates_commit db continues.2
  have certificate : (commit config db decision).certificates.get decision.height =
      some decision.certificate := by
    rw [trimmed.kept _ le_rfl, Table.get_insert_self]
  refine ⟨certificate, get_decidedBlocks_commit continues, ?_, ?_⟩
  · rw [Db.maxHeight_eq_some, certificate]
    exact ⟨rfl, fun other member => le_of_mem_insert continues (trimmed.shrinks other member)⟩
  · intro low member height above below
    refine trimmed.suffix low member height above ?_
    have lowPresent := trimmed.shrinks low member
    rw [Table.mem_keys, Table.get_insert] at lowPresent ⊢
    by_cases same : height = decision.height
    · rw [if_pos same]
      rfl
    · -- Below the new tip the certificates are the old ones, up to the old tip.
      have less : height < decision.height := lt_of_le_of_ne below same
      rw [if_neg (ne_of_lt (above.trans_lt less))] at lowPresent
      obtain ⟨tip, found⟩ : ∃ tip, db.maxHeight = some tip := by
        cases found : db.maxHeight with
        | none =>
          rw [Db.maxHeight_eq_none.mp found] at lowPresent
          cases lowPresent
        | some tip => exact ⟨tip, rfl⟩
      have next := continues.1 tip found
      have bound : height ≤ tip := by
        rw [Height.lt_def] at less
        rw [Height.le_def]
        omega
      rw [if_neg same]
      exact Table.mem_keys.mp
        (contiguous tip found low (Table.mem_keys.mpr lowPresent) height above bound)

theorem TipKept.contiguous {after : Db S} (kept : TipKept after decision) : Contiguous after := by
  intro tip found low member height above below
  rw [kept.maxHeight] at found
  exact kept.interval low member height above (Option.some_inj.mp found ▸ below)

end Commit

/-- **Every run of commits keeps its tip**, as long as each commit continues the chain and the
absolute pruning height is not above it. -/
theorem commits_keep_tip (start : Db S) (commits : List (Commit S)) (contiguous : Contiguous start)
    (continues : Along (commitStep config) (ContinuesTip config) start commits) :
    Along (commitStep config) (fun db decision => TipKept (commit config db decision) decision)
      start commits :=
  along_of_invariant (fun _ _ before admitted => (tipKept_commit before admitted).contiguous)
    (fun _ _ before admitted => tipKept_commit before admitted) contiguous continues

/-- Certificates below height 100 are to be pruned. -/
def prunedBelow100 : PruningConfig := ⟨0, 100⟩

/-- The first commit of a chain under that setting loses its own certificate. -/
theorem not_commits_keep_tip_below_setting : ¬ Along (commitStep prunedBelow100)
      (fun db decision => TipKept (commit prunedBelow100 db decision) decision)
      (∅ : Db Schema.raw) [⟨1, [1], [3], true⟩] := by
  rintro ⟨kept, _⟩
  have lost := kept.certificate
  revert lost
  decide

theorem commits_keep_tip_three_heights :
    Along (commitStep ⟨1, 0⟩) (fun db decision => TipKept (commit ⟨1, 0⟩ db decision) decision)
      (∅ : Db Schema.raw) [⟨7, [1, 7], [3, 7], true⟩, ⟨8, [1, 8], [3, 8], true⟩,
        ⟨9, [1, 9], [3, 9], true⟩] := by
  refine commits_keep_tip ⟨1, 0⟩ ∅ _ ?_ ?_
  · intro tip found
    cases found
  · simp only [Along, ContinuesTip, and_true]
    decide

end ArcNode.Store
