/-
**Running an interrupted migration again.**

The commits of `migrate` follow one another as `migrateTables_spec` lists them, every state between
two of them is a store a second run accepts (`partway_migrateTables`), and a second run rewrites all
of it once more. So recovery gives the uninterrupted result exactly when the first run had not
rewritten any record yet, or had written the version row (**`upgrade_crashAt_iff`**).
-/

import ArcNode.Store.Migration

namespace ArcNode.Store

open ArcNode.Lib ArcNode.Types

/-- What a version 0 file must hold for a migration to get through: no empty record, and room for
the height after each scanned one. -/
structure Migratable (store : RawStore) : Prop where
  certificates : NoEmptyRecord store.db.certificates
  decidedBlocks : NoEmptyRecord store.db.decidedBlocks
  undecidedBlocks : NoEmptyRecord store.db.undecidedBlocks
  pendingProposalParts : NoEmptyRecord store.db.pendingProposalParts
  certificateRoom : ∀ key ∈ store.db.certificates.keys, key.val + 1 < 2 ^ 64
  decidedBlockRoom : ∀ key ∈ store.db.decidedBlocks.keys, key.val + 1 < 2 ^ 64

/-! ### The stages of a migration -/

variable (store : RawStore)

/-- The store with its certificates rewritten. -/
def certificatesStage : RawStore :=
  { store with db := { store.db with
      certificates := store.db.certificates.mapValues (versioned 1) } }

/-- The store with its certificates and decided blocks rewritten. -/
def decidedBlocksStage : RawStore :=
  { store with db := { (certificatesStage store).db with
      decidedBlocks := store.db.decidedBlocks.mapValues (versioned 3) } }

/-- The store with all but the pending parts rewritten. -/
def undecidedBlocksStage : RawStore :=
  { store with db := { (decidedBlocksStage store).db with
      undecidedBlocks := store.db.undecidedBlocks.mapValues (versioned 1) } }

/-- The store with every record of the four tables rewritten. -/
def versionedTables : RawStore :=
  { store with db := { (undecidedBlocksStage store).db with
      pendingProposalParts := store.db.pendingProposalParts.mapValues (versioned 1) } }

/-- **A migrated store**: one version byte in front of every record, and the current version row. -/
def migrated : RawStore := setSchemaVersion (versionedTables store) dbSchemaVersion

section Stages

variable {store : RawStore} (good : Migratable store)

include good

theorem migrateCertificates_spec : (migrateCertificates store).failure = none ∧
      (migrateCertificates store).last store = certificatesStage store ∧
      (migrateCertificates store).commits.length = batchCount store.db.certificates.len := by
  obtain ⟨table, count⟩ := tableMigrated_heightTable 1 .certificate good.certificates
    good.certificateRoom
  refine ⟨table.succeeds, ?_, by rw [← count]; exact List.length_map _⟩
  have final := Progress.last_map
    (fun written => { store with db := { store.db with certificates := written } })
    (migrateHeightTable (prependMigrator 1) .certificate store.db.certificates)
    store.db.certificates
  rw [table.finishes] at final
  exact final

theorem migrateDecidedBlocks_spec :
    (migrateDecidedBlocks (certificatesStage store)).failure = none ∧
      (migrateDecidedBlocks (certificatesStage store)).last (certificatesStage store) =
        decidedBlocksStage store ∧
      (migrateDecidedBlocks (certificatesStage store)).commits.length =
        batchCount store.db.decidedBlocks.len := by
  obtain ⟨table, count⟩ := tableMigrated_heightTable 3 .decidedBlock good.decidedBlocks
    good.decidedBlockRoom
  refine ⟨table.succeeds, ?_, by rw [← count]; exact List.length_map _⟩
  have final := Progress.last_map
    (fun written => { certificatesStage store with
      db := { (certificatesStage store).db with decidedBlocks := written } })
    (migrateHeightTable (prependMigrator 3) .decidedBlock store.db.decidedBlocks)
    store.db.decidedBlocks
  rw [table.finishes] at final
  exact final

theorem migrateUndecidedBlocks_eq :
    migrateUndecidedBlocks (decidedBlocksStage store) = .commit (undecidedBlocksStage store) := by
  have table := migrateBlockTable_prepend 1 .undecidedBlock good.undecidedBlocks
  unfold migrateUndecidedBlocks consensusBlockMigrator0To1
  rw [show (decidedBlocksStage store).db.undecidedBlocks = store.db.undecidedBlocks from rfl, table]
  rfl

theorem migratePendingParts_eq :
    migratePendingParts (undecidedBlocksStage store) = .commit (versionedTables store) := by
  have table := migrateBlockTable_prepend 1 .pendingParts good.pendingProposalParts
  unfold migratePendingParts proposalPartsMigrator0To1
  rw [show (undecidedBlocksStage store).db.pendingProposalParts =
    store.db.pendingProposalParts from rfl, table]
  rfl

theorem migrateTables_spec : (migrateTables store).failure = none ∧
      (migrateTables store).commits = (migrateCertificates store).commits ++
        (migrateDecidedBlocks (certificatesStage store)).commits ++
        [undecidedBlocksStage store, versionedTables store] := by
  obtain ⟨certificatesOk, certificatesLast, _⟩ := migrateCertificates_spec good
  obtain ⟨decidedOk, decidedLast, _⟩ := migrateDecidedBlocks_spec good
  have twoOk : ((migrateCertificates store).andThen store migrateDecidedBlocks).failure = none := by
    rw [Progress.failure_andThen certificatesOk, certificatesLast, decidedOk]
  have twoLast : ((migrateCertificates store).andThen store migrateDecidedBlocks).last store =
      decidedBlocksStage store := by
    rw [Progress.last_andThen certificatesOk, certificatesLast, decidedLast]
  have threeOk : (((migrateCertificates store).andThen store migrateDecidedBlocks).andThen store
      migrateUndecidedBlocks).failure = none := by
    rw [Progress.failure_andThen twoOk, twoLast, migrateUndecidedBlocks_eq good]
    rfl
  have threeLast : (((migrateCertificates store).andThen store migrateDecidedBlocks).andThen store
      migrateUndecidedBlocks).last store = undecidedBlocksStage store := by
    rw [Progress.last_andThen twoOk, twoLast, migrateUndecidedBlocks_eq good, Progress.last_commit]
  unfold migrateTables
  rw [Progress.failure_andThen threeOk, Progress.commits_andThen threeOk, threeLast,
    migratePendingParts_eq good, Progress.commits_andThen twoOk, twoLast,
    migrateUndecidedBlocks_eq good, Progress.commits_andThen certificatesOk, certificatesLast,
    List.append_assoc]
  exact ⟨rfl, rfl⟩

theorem last_migrateTables : (migrateTables store).last store = versionedTables store := by
  rw [Progress.last, (migrateTables_spec good).2, Progress.getLastD_append]
  rfl

/-- Transactions of a whole migration: the batches of two tables, two tables, the version row. -/
theorem length_commits_migrateTables : (migrateTables store).commits.length =
      batchCount store.db.certificates.len + batchCount store.db.decidedBlocks.len + 2 := by
  rw [(migrateTables_spec good).2, List.length_append, List.length_append,
    (migrateCertificates_spec good).2.2, (migrateDecidedBlocks_spec good).2.2]
  rfl

/-- **A state between two commits of the tables.** It is still at version 0 and still migratable,
and it shows that the first table with rows in it was touched. -/
structure Partway (store state : RawStore) : Prop where
  version : state.schemaVersion = store.schemaVersion
  migratable : Migratable state
  certificates : store.db.certificates.len ≠ 0 → state.db.certificates ≠ store.db.certificates
  decidedBlocks : store.db.certificates.len = 0 → store.db.decidedBlocks.len ≠ 0 →
    state.db.decidedBlocks ≠ store.db.decidedBlocks

theorem migratable_certificates {table : Table Height Record} (full : NoEmptyRecord table)
    (same : table.keys = store.db.certificates.keys) :
    Migratable { store with db := { store.db with certificates := table } } :=
  ⟨full, good.decidedBlocks, good.undecidedBlocks, good.pendingProposalParts,
    fun key present => good.certificateRoom key (same ▸ present), good.decidedBlockRoom⟩

theorem migratable_decidedBlocks {table : Table Height Record} (full : NoEmptyRecord table)
    (same : table.keys = store.db.decidedBlocks.keys) :
    Migratable { certificatesStage store with
      db := { (certificatesStage store).db with decidedBlocks := table } } := by
  have certificateKeys : (certificatesStage store).db.certificates.keys =
      store.db.certificates.keys := Table.keys_mapValues _ _
  exact ⟨noEmptyRecord_mapValues _, full, good.undecidedBlocks, good.pendingProposalParts,
    fun key present => good.certificateRoom key (certificateKeys ▸ present),
    fun key present => good.decidedBlockRoom key (same ▸ present)⟩

variable {state : RawStore}

theorem partway_migrateCertificates
    (committed : state ∈ (migrateCertificates store).commits) : Partway store state := by
  obtain ⟨table, count⟩ := tableMigrated_heightTable 1 .certificate good.certificates
    good.certificateRoom
  obtain ⟨written, member, rfl⟩ := List.mem_map.mp committed
  obtain ⟨select, same, touched⟩ := table.partway written member
  have some_row : store.db.certificates.len ≠ 0 := by
    intro empty
    rw [empty, batchCount, if_pos rfl, List.length_eq_zero_iff] at count
    exact List.ne_nil_of_mem member count
  refine ⟨rfl, ?_, fun _ => ?_, fun empty => absurd empty some_row⟩
  · rw [same]
    exact migratable_certificates good (noEmptyRecord_mapIf good.certificates _)
      (Table.keys_mapIf _ _ _)
  · obtain ⟨key, present, selected⟩ :=
      touched (List.ne_nil_of_length_pos (Nat.pos_of_ne_zero some_row))
    rw [same]
    exact mapIf_versioned_ne present selected

theorem partway_migrateDecidedBlocks
    (committed : state ∈ (migrateDecidedBlocks (certificatesStage store)).commits) :
    Partway store state := by
  obtain ⟨table, count⟩ := tableMigrated_heightTable 3 .decidedBlock good.decidedBlocks
    good.decidedBlockRoom
  obtain ⟨written, member, rfl⟩ := List.mem_map.mp committed
  obtain ⟨select, same, touched⟩ := table.partway written member
  refine ⟨rfl, ?_, fun some_row => mapValues_versioned_ne some_row, fun _ some_row => ?_⟩
  · rw [same]
    exact migratable_decidedBlocks good (noEmptyRecord_mapIf good.decidedBlocks _)
      (Table.keys_mapIf _ _ _)
  · obtain ⟨key, present, selected⟩ :=
      touched (List.ne_nil_of_length_pos (Nat.pos_of_ne_zero some_row))
    show written ≠ store.db.decidedBlocks
    rw [same]
    exact mapIf_versioned_ne present selected

theorem migratable_decidedBlocksStage : Migratable (decidedBlocksStage store) :=
  migratable_decidedBlocks good (noEmptyRecord_mapValues _) (Table.keys_mapValues _ _)

theorem partway_late
    (late : state ∈ [undecidedBlocksStage store, versionedTables store]) : Partway store state := by
  have stage := migratable_decidedBlocksStage good
  rcases List.mem_pair.mp late with rfl | rfl
  · exact ⟨rfl, ⟨stage.certificates, stage.decidedBlocks, noEmptyRecord_mapValues _,
      stage.pendingProposalParts, stage.certificateRoom, stage.decidedBlockRoom⟩,
      mapValues_versioned_ne, fun _ => mapValues_versioned_ne⟩
  · exact ⟨rfl, ⟨stage.certificates, stage.decidedBlocks, noEmptyRecord_mapValues _,
      noEmptyRecord_mapValues _, stage.certificateRoom, stage.decidedBlockRoom⟩,
      mapValues_versioned_ne, fun _ => mapValues_versioned_ne⟩

theorem partway_migrateTables
    (committed : state ∈ (migrateTables store).commits) : Partway store state := by
  rw [(migrateTables_spec good).2, List.mem_append, List.mem_append] at committed
  rcases committed with (first | second) | late
  · exact partway_migrateCertificates good first
  · exact partway_migrateDecidedBlocks good second
  · exact partway_late good late

end Stages

/-! ### One run, and a second one -/

/-- Transactions of a whole migration. -/
def commitCount : ℕ :=
  batchCount store.db.certificates.len + batchCount store.db.decidedBlocks.len + 3

section Runs

variable {store : RawStore} (old : store.schemaVersion = some schemaV0) (good : Migratable store)

include old

theorem migrate_eq : migrate store = (migrateTables store).andThen store
      fun tables => .commit (setSchemaVersion tables dbSchemaVersion) := by
  unfold migrate
  rw [old]
  exact if_pos (by decide)

include good

theorem failure_migrate : (migrate store).failure = none := by
  rw [migrate_eq old, Progress.failure_andThen (migrateTables_spec good).1]
  rfl

theorem last_migrate : (migrate store).last store = migrated store := by
  rw [migrate_eq old, Progress.last_andThen (migrateTables_spec good).1, Progress.last_commit,
    last_migrateTables good]
  rfl

/-- **An uninterrupted migration** puts one version byte in front of every record. -/
theorem result_migrate : (migrate store).result store = .ok (migrated store) := by
  unfold Progress.result
  rw [failure_migrate old good, last_migrate old good]

theorem upgrade_of_v0 : upgrade true store = .ok (migrated store) := by
  have checked : needsMigration true store = .ok (store, true) := by
    unfold needsMigration
    rw [old]
    exact if_pos (by decide)
  unfold upgrade
  rw [checked]
  exact result_migrate old good

theorem crashAt_migrate (count : ℕ) : (migrate store).crashAt store count =
      if count < commitCount store then (migrateTables store).crashAt store count
      else migrated store := by
  rw [migrate_eq old, Progress.crashAt_andThen (migrateTables_spec good).1,
    length_commits_migrateTables good, last_migrateTables good]
  unfold commitCount
  split_ifs with within before before
  · rfl
  · omega
  · omega
  · exact Progress.crashAt_of_length_le (by simp [Progress.commit]; omega) _

end Runs

theorem upgrade_migrated : upgrade true (migrated store) = .ok (migrated store) :=
  rfl

theorem tables_of_migrated_eq {first second : RawStore} (same : migrated first = migrated second) :
    first.db.certificates = second.db.certificates ∧
      first.db.decidedBlocks = second.db.decidedBlocks ∧
      first.db.undecidedBlocks = second.db.undecidedBlocks ∧
      first.db.pendingProposalParts = second.db.pendingProposalParts :=
  ⟨Table.mapValues_injective (versioned_injective 1) (congrArg (·.db.certificates) same),
    Table.mapValues_injective (versioned_injective 3) (congrArg (·.db.decidedBlocks) same),
    Table.mapValues_injective (versioned_injective 1) (congrArg (·.db.undecidedBlocks) same),
    Table.mapValues_injective (versioned_injective 1) (congrArg (·.db.pendingProposalParts) same)⟩

/-- **When a second run can take over after `count` commits**: nothing was committed, everything
was, or the tables rewritten so far are empty. -/
def Resumable (store : RawStore) (count : ℕ) : Prop :=
  count = 0 ∨ commitCount store ≤ count ∨
    (store.db.certificates.len = 0 ∧ store.db.decidedBlocks.len = 0 ∧
      store.db.undecidedBlocks.len = 0 ∧ (count = 1 ∨ store.db.pendingProposalParts.len = 0))
  deriving Decidable

section NoHeightRows

variable {store : RawStore} (noCertificates : store.db.certificates.len = 0)
  (noDecidedBlocks : store.db.decidedBlocks.len = 0)

include noCertificates noDecidedBlocks

theorem commits_migrateTables_of_empty (good : Migratable store) :
    (migrateTables store).commits = [undecidedBlocksStage store, versionedTables store] := by
  have first := (migrateCertificates_spec good).2.2
  have second := (migrateDecidedBlocks_spec good).2.2
  rw [noCertificates, batchCount, if_pos rfl, List.length_eq_zero_iff] at first
  rw [noDecidedBlocks, batchCount, if_pos rfl, List.length_eq_zero_iff] at second
  rw [(migrateTables_spec good).2, first, second]
  rfl

theorem undecidedBlocksStage_of_empty :
    undecidedBlocksStage store = { store with db := { store.db with
      undecidedBlocks := store.db.undecidedBlocks.mapValues (versioned 1) } } := by
  unfold undecidedBlocksStage decidedBlocksStage certificatesStage
  rw [mapValues_versioned_eq_self_iff.mpr noCertificates,
    mapValues_versioned_eq_self_iff.mpr noDecidedBlocks]

theorem versionedTables_of_empty (noUndecided : store.db.undecidedBlocks.len = 0)
    (noPending : store.db.pendingProposalParts.len = 0) : versionedTables store = store := by
  unfold versionedTables
  rw [undecidedBlocksStage_of_empty noCertificates noDecidedBlocks,
    mapValues_versioned_eq_self_iff.mpr noUndecided, mapValues_versioned_eq_self_iff.mpr noPending]

theorem migrated_undecidedBlocksStage_iff :
    migrated (undecidedBlocksStage store) = migrated store ↔ store.db.undecidedBlocks.len = 0 := by
  constructor
  · intro same
    exact mapValues_versioned_eq_self_iff.mp (tables_of_migrated_eq same).2.2.1
  · intro empty
    rw [undecidedBlocksStage_of_empty noCertificates noDecidedBlocks,
      mapValues_versioned_eq_self_iff.mpr empty]

theorem migrated_versionedTables_iff : migrated (versionedTables store) = migrated store ↔
      store.db.undecidedBlocks.len = 0 ∧ store.db.pendingProposalParts.len = 0 := by
  constructor
  · intro same
    obtain ⟨_, _, undecided, pending⟩ := tables_of_migrated_eq same
    exact ⟨mapValues_versioned_eq_self_iff.mp undecided, mapValues_versioned_eq_self_iff.mp pending⟩
  · rintro ⟨noUndecided, noPending⟩
    rw [versionedTables_of_empty noCertificates noDecidedBlocks noUndecided noPending]

end NoHeightRows

/-- A cut among the table commits migrates to the uninterrupted result exactly when it changed
nothing. -/
theorem migrated_crashAt_iff {store : RawStore} (good : Migratable store) {count : ℕ}
    (positive : 0 < count) (early : count < commitCount store) :
    migrated ((migrateTables store).crashAt store count) = migrated store ↔
      Resumable store count := by
  have unfinished : ¬ (count = 0 ∨ commitCount store ≤ count) := by omega
  have reduced : Resumable store count ↔
      (store.db.certificates.len = 0 ∧ store.db.decidedBlocks.len = 0 ∧
        store.db.undecidedBlocks.len = 0 ∧
          (count = 1 ∨ store.db.pendingProposalParts.len = 0)) := by
    unfold Resumable
    rw [← or_assoc, or_iff_right unfinished]
  have commits := length_commits_migrateTables good
  have partway := partway_migrateTables good (Progress.crashAt_mem positive
    (List.ne_nil_of_length_pos (by rw [commits]; omega)) store)
  rw [reduced]
  by_cases noCertificates : store.db.certificates.len = 0
  · by_cases noDecidedBlocks : store.db.decidedBlocks.len = 0
    · have two : count = 1 ∨ count = 2 := by
        unfold commitCount at early
        rw [noCertificates, noDecidedBlocks] at early
        simp only [batchCount, if_true] at early
        omega
      rcases two with rfl | rfl
      · rw [Progress.crashAt, commits_migrateTables_of_empty noCertificates noDecidedBlocks good]
        simpa [noCertificates, noDecidedBlocks] using
          migrated_undecidedBlocksStage_iff noCertificates noDecidedBlocks
      · rw [Progress.crashAt, commits_migrateTables_of_empty noCertificates noDecidedBlocks good]
        simpa [noCertificates, noDecidedBlocks] using
          migrated_versionedTables_iff noCertificates noDecidedBlocks
    · refine iff_of_false (fun same => ?_) (fun condition => noDecidedBlocks condition.2.1)
      exact partway.decidedBlocks noCertificates noDecidedBlocks (tables_of_migrated_eq same).2.1
  · refine iff_of_false (fun same => ?_) (fun condition => noCertificates condition.1)
    exact partway.certificates noCertificates (tables_of_migrated_eq same).1

/-- **Recovery after a crash.** One uninterrupted migration gives every record exactly one version
byte. A migration cut after `count` commits and then run again gives the same store exactly when the
commits made so far were all of them or had rewritten no record. -/
theorem upgrade_crashAt_iff (old : store.schemaVersion = some schemaV0)
    (good : Migratable store) (count : ℕ) :
    (migrate store).result store = .ok (migrated store) ∧
      (upgrade true ((migrate store).crashAt store count) = .ok (migrated store) ↔
        Resumable store count) := by
  refine ⟨result_migrate old good, ?_⟩
  rw [crashAt_migrate old good]
  split_ifs with early
  · rcases Nat.eq_zero_or_pos count with rfl | positive
    · rw [Progress.crashAt_zero, upgrade_of_v0 old good]
      exact iff_of_true rfl (Or.inl rfl)
    · have commits := length_commits_migrateTables good
      have partway := partway_migrateTables good (Progress.crashAt_mem positive
        (List.ne_nil_of_length_pos (by rw [commits]; omega)) store)
      rw [upgrade_of_v0 (partway.version.trans old) partway.migratable, Except.ok.injEq,
        migrated_crashAt_iff good positive early]
  · rw [upgrade_migrated]
    exact iff_of_true rfl (Or.inr (Or.inl (not_lt.mp early)))

/-- A version 0 file with one certificate, whose bytes happen to start with the version byte. -/
def oneCertificate : RawStore where
  db := { (∅ : Db Schema.raw) with certificates := Table.insert ∅ 5 [1, 42] }
  schemaVersion := some schemaV0

/-- After a crash behind the first batch, the second run prefixes the certificate once more: it ends
as `[1, 1, 1, 42]` instead of `[1, 1, 42]`. -/
theorem upgrade_crashAt_oneCertificate_ne :
    upgrade true ((migrate oneCertificate).crashAt oneCertificate 1) ≠
      (migrate oneCertificate).result oneCertificate := by
  intro same
  have records := congrArg
    (fun outcome => outcome.toOption.map fun store => store.db.certificates.get 5) same
  revert records
  decide

theorem upgrade_crashAt_oneCertificate_done : Resumable oneCertificate 4 ∧
      upgrade true ((migrate oneCertificate).crashAt oneCertificate 4) =
        .ok (migrated oneCertificate) :=
  ⟨by decide, ((upgrade_crashAt_iff oneCertificate rfl
    ⟨by decide, by decide, by decide, by decide, by decide, by decide⟩ 4).2).mpr (by decide)⟩

end ArcNode.Store
