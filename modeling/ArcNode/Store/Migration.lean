/-
**Schema migration: a version byte in front of every record.**

`migrate` rewrites four tables and then the schema version. Certificates and decided blocks are
rewritten in batches of `batchSize`, each its own transaction; undecided blocks and pending parts in
one transaction each; the version row comes last. The migrators prefix every record they are shown,
whatever its first byte. The module follows one table: one batch (**`batch_spec`**), the loop over
the batches (**`batchesDone`**), and what every committed state of the table looks like
(**`tableMigrated_heightTable`**).
-/

import ArcNode.Lib.Progress
import ArcNode.Store.Db

namespace ArcNode.Store

open ArcNode.Lib ArcNode.Types

/-! ### Records, versions, errors -/

abbrev Record := List Byte

abbrev SchemaVersion := Byte

/-- Records without a version byte. -/
def schemaV0 : SchemaVersion := 0

def dbSchemaVersion : SchemaVersion := 1

/-- The file: its tables and the version row of the metadata table. -/
structure RawStore where
  db : Db Schema.raw
  schemaVersion : Option SchemaVersion

/-- The row an error names. -/
inductive RecordId where
  | certificate (height : Height)
  | decidedBlock (height : Height)
  | undecidedBlock (key : BlockKey)
  | pendingParts (key : BlockKey)
  deriving DecidableEq

inductive MigrationError where
  | emptyVersion (record : RecordId)
  | heightOverflow (record : RecordId)
  | unsupportedVersion (version : SchemaVersion)
  | versionNotSet
  | outOfFuel
  deriving DecidableEq

structure Migrator where
  targetVersion : SchemaVersion
  needsMigration : Record → Bool
  migrate : Record → Option Record

/-- A migrator that puts its target version in front of every non-empty record. -/
def prependMigrator (target : SchemaVersion) : Migrator where
  targetVersion := target
  needsMigration _ := true
  migrate old := if old.isEmpty then none else some (target :: old)

def commitCertificateMigrator0To1 : Migrator := prependMigrator 1

def executionPayloadMigrator0To3 : Migrator := prependMigrator 3

def consensusBlockMigrator0To1 : Migrator := prependMigrator 1

def proposalPartsMigrator0To1 : Migrator := prependMigrator 1

/-! ### The coordinator -/

/-- Records of one write transaction. -/
def batchSize : ℕ := 1000

variable {K : Type}

section Tables

variable (migrator : Migrator)

/-- One record of a scan: nothing to write, or the new record. -/
def upgradeRecord (name : K → RecordId) (entry : K × Record) :
    Except MigrationError (List (K × Record)) :=
  if migrator.needsMigration entry.2 then
    match migrator.migrate entry.2 with
    | none => .error (.emptyVersion (name entry.1))
    | some new => .ok [(entry.1, new)]
  else .ok []

/-- The inner loop of a batch: the records to write and the height the next batch starts at. -/
def scanBatch (name : Height → RecordId) :
    List (Height × Record) → Height → Except MigrationError (List (Height × Record) × Height)
  | [], next => .ok ([], next)
  | entry :: rest, _ => do
    let upgraded ← upgradeRecord migrator name entry
    match entry.1.increment with
    | none => .error (.heightOverflow (name entry.1))
    | some next =>
      let (batch, final) ← scanBatch name rest next
      .ok (upgraded ++ batch, final)

/-- `table.range(next..)`. -/
def entriesFrom {V : Type} (table : Table Height V) (next : Height) : List (Height × V) :=
  table.entries.filter fun entry => next ≤ entry.1

/-- The batches of `migrate_certificates` and `migrate_decided_blocks`. -/
def migrateBatches (name : Height → RecordId) :
    ℕ → Height → Table Height Record → Progress (Table Height Record) MigrationError
  | 0, _, _ => .fail .outOfFuel
  | fuel + 1, next, table =>
    let scanned := (entriesFrom table next).take batchSize
    match scanBatch migrator name scanned next with
    | .error error => .fail error
    | .ok (batch, final) =>
      let written := table.insertAll batch
      if scanned.length < batchSize then .commit written
      else
        let rest := migrateBatches name fuel final written
        ⟨written :: rest.commits, rest.failure⟩

/-- A table migrated in batches, from its smallest height; an empty table takes no transaction. -/
def migrateHeightTable (name : Height → RecordId) (table : Table Height Record) :
    Progress (Table Height Record) MigrationError :=
  match table.first with
  | none => .done
  | some entry => migrateBatches migrator name (table.len + 1) entry.1 table

/-- The loop of a table that is migrated in one transaction. -/
def scanAll (name : BlockKey → RecordId) :
    List (BlockKey × Record) → Except MigrationError (List (BlockKey × Record))
  | [] => .ok []
  | entry :: rest => do
    let upgraded ← upgradeRecord migrator name entry
    let batch ← scanAll name rest
    .ok (upgraded ++ batch)

/-- A table migrated in one transaction, which commits even when there is nothing to write. -/
def migrateBlockTable (name : BlockKey → RecordId) (table : Table BlockKey Record) :
    Progress (Table BlockKey Record) MigrationError :=
  match scanAll migrator name table.entries with
  | .error error => .fail error
  | .ok batch => .commit (table.insertAll batch)

end Tables

variable (store : RawStore)

def migrateCertificates : Progress RawStore MigrationError :=
  (migrateHeightTable commitCertificateMigrator0To1 .certificate store.db.certificates).map
    fun table => { store with db := { store.db with certificates := table } }

def migrateDecidedBlocks : Progress RawStore MigrationError :=
  (migrateHeightTable executionPayloadMigrator0To3 .decidedBlock store.db.decidedBlocks).map
    fun table => { store with db := { store.db with decidedBlocks := table } }

def migrateUndecidedBlocks : Progress RawStore MigrationError :=
  (migrateBlockTable consensusBlockMigrator0To1 .undecidedBlock store.db.undecidedBlocks).map
    fun table => { store with db := { store.db with undecidedBlocks := table } }

def migratePendingParts : Progress RawStore MigrationError :=
  (migrateBlockTable proposalPartsMigrator0To1 .pendingParts store.db.pendingProposalParts).map
    fun table => { store with db := { store.db with pendingProposalParts := table } }

def setSchemaVersion (version : SchemaVersion) : RawStore :=
  { store with schemaVersion := some version }

/-- The four tables of one link of the migration chain. -/
def migrateTables : Progress RawStore MigrationError :=
  (((migrateCertificates store).andThen store migrateDecidedBlocks).andThen store
    migrateUndecidedBlocks).andThen store migratePendingParts

/-- `migrate`: the chain from the stored version to the current one has at most one link, and the
version row is written after its tables. -/
def migrate : Progress RawStore MigrationError :=
  match store.schemaVersion with
  | none => .fail .versionNotSet
  | some version =>
    if version < dbSchemaVersion then
      (migrateTables store).andThen store fun tables =>
        .commit (setSchemaVersion tables dbSchemaVersion)
    else .done

/-- `needs_migration`, with the version row it writes. -/
def needsMigration (dbExists : Bool) (store : RawStore) : Except MigrationError (RawStore × Bool) :=
  match store.schemaVersion with
  | none =>
    if dbExists then .ok (setSchemaVersion store schemaV0, true)
    else .ok (setSchemaVersion store dbSchemaVersion, false)
  | some version =>
    if version < dbSchemaVersion then .ok (store, true)
    else if dbSchemaVersion < version then .error (.unsupportedVersion version)
    else .ok (store, false)

/-- The upgrade of `Db::new`: `needs_migration`, then `migrate` when it asks for it. -/
def upgrade (dbExists : Bool) (store : RawStore) : Except MigrationError RawStore := do
  let (checked, needed) ← needsMigration dbExists store
  if needed then (migrate checked).result checked else .ok checked

/-! ### One table -/

/-- The record with its version byte. -/
def versioned (version : SchemaVersion) (old : Record) : Record := version :: old

/-- No record is empty. -/
def NoEmptyRecord [LinearOrder K] (table : Table K Record) : Prop :=
  ∀ entry ∈ table.entries, entry.2 ≠ []
  deriving Decidable

/-- **What the committed states of a migrated table look like.** Each rewrites some of the records
once, the last one all of them, and none is the table the migration started from. -/
structure TableMigrated {K : Type} [LinearOrder K] (version : SchemaVersion)
    (table : Table K Record) (progress : Progress (Table K Record) MigrationError) : Prop where
  succeeds : progress.failure = none
  finishes : progress.last table = table.mapValues (versioned version)
  partway : ∀ written ∈ progress.commits, ∃ select : K → Bool,
    written = table.mapIf select (versioned version) ∧
      (table.entries ≠ [] → ∃ key ∈ table.keys, select key = true)

section Table

variable {version : SchemaVersion}

theorem upgradeRecord_prepend {name : K → RecordId} {entry : K × Record}
    (full : entry.2 ≠ []) :
    upgradeRecord (prependMigrator version) name entry =
      .ok [(entry.1, versioned version entry.2)] := by
  simp [upgradeRecord, prependMigrator, full, versioned]

/-- A scan of non-empty records below the top height rewrites all of them and stops right after the
last one. -/
theorem scanBatch_prepend (version : SchemaVersion) (name : Height → RecordId)
    {scanned : List (Height × Record)} (full : ∀ entry ∈ scanned, entry.2 ≠ [])
    (room : ∀ entry ∈ scanned, entry.1.val + 1 < 2 ^ 64)
    (sorted : scanned.Pairwise fun first second => first.1 < second.1) (next : Height) :
    ∃ final, scanBatch (prependMigrator version) name scanned next =
        .ok (scanned.map fun entry => (entry.1, versioned version entry.2), final) ∧
      (∀ entry ∈ scanned, entry.1 < final) ∧
      (scanned = [] ∧ final = next ∨ ∃ entry ∈ scanned, final.val = entry.1.val + 1) := by
  induction scanned generalizing next with
  | nil =>
    refine ⟨next, rfl, ?_, Or.inl ⟨rfl, rfl⟩⟩
    intro entry member
    cases member
  | cons entry rest ih =>
    have fits := room entry List.mem_cons_self
    obtain ⟨above, tail⟩ := List.pairwise_cons.mp sorted
    have following : entry.1.increment = some ⟨entry.1.val + 1, fits⟩ :=
      Height.increment_eq_some.mpr rfl
    obtain ⟨final, scan, bound, stop⟩ :=
      ih (fun other member => full other (List.mem_cons_of_mem _ member))
        (fun other member => room other (List.mem_cons_of_mem _ member)) tail
        ⟨entry.1.val + 1, fits⟩
    have past : entry.1 < final := by
      rcases stop with ⟨_, rfl⟩ | ⟨other, member, same⟩
      · exact Height.lt_def.mpr (Nat.lt_succ_self _)
      · have less := Height.lt_def.mp (above other member)
        rw [Height.lt_def]
        omega
    refine ⟨final, ?_, ?_, Or.inr ?_⟩
    · rw [scanBatch, upgradeRecord_prepend (full entry List.mem_cons_self), following]
      show (do let (batch, final) ← scanBatch _ name rest _; Except.ok (_ ++ batch, final)) = _
      rw [scan]
      rfl
    · intro other member
      rcases List.mem_cons.mp member with rfl | later
      · exact past
      · exact bound other later
    · rcases stop with ⟨_, rfl⟩ | ⟨other, member, same⟩
      · exact ⟨entry, List.mem_cons_self, rfl⟩
      · exact ⟨other, List.mem_cons_of_mem _ member, same⟩

theorem mem_entriesFrom {V : Type} {table : Table Height V} {next : Height} {entry : Height × V} :
    entry ∈ entriesFrom table next ↔ entry ∈ table.entries ∧ next ≤ entry.1 := by
  rw [entriesFrom, List.mem_filter, decide_eq_true_iff]

/-- The rows a scan can start at `next` on: non-empty, and below the top height. -/
def UpgradableFrom (table : Table Height Record) (next : Height) : Prop :=
  ∀ entry ∈ entriesFrom table next, entry.2 ≠ [] ∧ entry.1.val + 1 < 2 ^ 64

/-- **One batch.** It rewrites the rows from `next` up to the height the next batch starts at, and
exactly `batchSize` rows fewer are left after it. -/
theorem batch_spec (version : SchemaVersion) (name : Height → RecordId)
    {table : Table Height Record} {next : Height} (good : UpgradableFrom table next) :
    ∃ final, scanBatch (prependMigrator version) name ((entriesFrom table next).take batchSize)
        next = .ok (((entriesFrom table next).take batchSize).map
          fun entry => (entry.1, versioned version entry.2), final) ∧
      next ≤ final ∧
      (∀ entry ∈ (entriesFrom table next).take batchSize, entry.1 < final) ∧
      (∀ entry ∈ (entriesFrom table next).drop batchSize, final ≤ entry.1) := by
  have sorted : (entriesFrom table next).Pairwise fun first second => first.1 < second.1 :=
    table.sorted.filter _
  have split := List.take_append_drop batchSize (entriesFrom table next)
  rw [← split, List.pairwise_append] at sorted
  have inside : ∀ entry ∈ (entriesFrom table next).take batchSize,
      entry ∈ entriesFrom table next := fun entry member => List.mem_of_mem_take member
  obtain ⟨final, scan, bound, stop⟩ := scanBatch_prepend version name
    (fun entry member => (good entry (inside entry member)).1)
    (fun entry member => (good entry (inside entry member)).2) sorted.1 next
  refine ⟨final, scan, ?_, bound, ?_⟩
  · rcases stop with ⟨_, rfl⟩ | ⟨entry, member, _⟩
    · exact le_rfl
    · exact (mem_entriesFrom.mp (inside entry member)).2.trans (bound entry member).le
  · intro entry member
    rcases stop with ⟨nothing, _⟩ | ⟨other, scanned, same⟩
    · rw [List.take_eq_nil_iff] at nothing
      rcases nothing with zero | empty
      · cases zero
      · rw [empty, List.drop_nil] at member
        cases member
    · have less := Height.lt_def.mp (sorted.2.2 other scanned entry member)
      rw [Height.le_def]
      omega

section Batch

variable {table : Table Height Record} {next final : Height}
  (below : ∀ entry ∈ (entriesFrom table next).take batchSize, entry.1 < final)
  (above : ∀ entry ∈ (entriesFrom table next).drop batchSize, final ≤ entry.1)

include below above

theorem insertAll_batch (version : SchemaVersion) :
    table.insertAll (((entriesFrom table next).take batchSize).map
        fun entry => (entry.1, versioned version entry.2)) =
      table.mapIf (fun key => next ≤ key ∧ key < final) (versioned version) := by
  have sublist : ((entriesFrom table next).take batchSize).Sublist table.entries :=
    (List.take_sublist _ _).trans List.filter_sublist
  have distinct : (((entriesFrom table next).take batchSize).map Prod.fst).Nodup :=
    table.keys_nodup.sublist (sublist.map Prod.fst)
  rw [Table.insertAll_map_eq_mapIf _ (fun entry member => sublist.subset member) distinct]
  refine Table.mapIf_congr _ fun key present => decide_eq_decide.mpr ?_
  constructor
  · intro member
    obtain ⟨entry, scanned, rfl⟩ := List.mem_map.mp member
    exact ⟨(mem_entriesFrom.mp (List.mem_of_mem_take scanned)).2, below entry scanned⟩
  · rintro ⟨least, less⟩
    obtain ⟨entry, member, rfl⟩ := List.mem_map.mp present
    have remaining := mem_entriesFrom.mpr ⟨member, least⟩
    rw [← List.take_append_drop batchSize (entriesFrom table next), List.mem_append] at remaining
    rcases remaining with scanned | later
    · exact List.mem_map_of_mem scanned
    · exact absurd less (not_lt.mpr (above entry later))

theorem length_entriesFrom_batch (ordered : next ≤ final) (select : Height → Bool)
    (f : Record → Record) :
    (entriesFrom (table.mapIf select f) final).length =
      (entriesFrom table next).length - batchSize := by
  have same : (entriesFrom (table.mapIf select f) final).length =
      ((entriesFrom table next).filter fun entry => final ≤ entry.1).length := by
    rw [entriesFrom, Table.mapIf, List.filter_map, List.length_map, entriesFrom, List.filter_filter]
    congr 1
    refine List.filter_congr fun entry _ => ?_
    by_cases past : final ≤ entry.1
    · simp [past, ordered.trans past]
    · simp [past]
  rw [same, ← List.length_drop,
    ← List.take_append_drop batchSize (entriesFrom table next), List.filter_append,
    List.filter_eq_nil_iff.mpr fun entry member => by simpa using below entry member,
    List.filter_eq_self.mpr fun entry member => by simpa using above entry member]
  simp

end Batch

/-- What a run of batches that starts at `next` leaves: the rows from there on are rewritten, from
the bottom up, and every commit has reached the first of them. -/
structure BatchesDone (version : SchemaVersion) (table : Table Height Record) (next : Height)
    (progress : Progress (Table Height Record) MigrationError) : Prop where
  succeeds : progress.failure = none
  finishes : progress.last table = table.mapIf (fun key => next ≤ key) (versioned version)
  partway : ∀ written ∈ progress.commits, ∃ bound, next ≤ bound ∧
    written = table.mapIf (fun key => next ≤ key ∧ key < bound) (versioned version) ∧
      (entriesFrom table next ≠ [] → ∃ key ∈ table.keys, next ≤ key ∧ key < bound)
  count : progress.commits.length = (entriesFrom table next).length / batchSize + 1

theorem upgradableFrom_mapIf (version : SchemaVersion) {table : Table Height Record}
    {next final : Height} (good : UpgradableFrom table next) (ordered : next ≤ final)
    (select : Height → Bool) :
    UpgradableFrom (table.mapIf select (versioned version)) final := by
  intro entry member
  obtain ⟨inside, least⟩ := mem_entriesFrom.mp member
  obtain ⟨old, oldMember, rfl⟩ := List.mem_map.mp inside
  obtain ⟨full, room⟩ := good old (mem_entriesFrom.mpr ⟨oldMember, ordered.trans least⟩)
  refine ⟨?_, room⟩
  show (if select old.1 then versioned version old.2 else old.2) ≠ []
  split_ifs
  · exact List.cons_ne_nil _ _
  · exact full

theorem mapIf_stretch (table : Table Height Record) {next final : Height}
    {reached whole : Height → Bool} (past : ∀ key, reached key = true → final ≤ key)
    (split : ∀ key, whole key = true ↔ (next ≤ key ∧ key < final) ∨ reached key = true) :
    (table.mapIf (fun key => next ≤ key ∧ key < final) (versioned version)).mapIf reached
      (versioned version) = table.mapIf whole (versioned version) := by
  rw [Table.mapIf_mapIf]
  · refine Table.mapIf_congr _ fun key _ => ?_
    rw [Bool.eq_iff_iff, split, Bool.or_eq_true, decide_eq_true_iff]
  · intro key inside
    by_contra other
    have less := (of_decide_eq_true inside).2
    exact absurd less (not_lt.mpr (past key (by simpa using other)))

section Loop

variable {table : Table Height Record} {next final : Height} (ordered : next ≤ final)
  (below : ∀ entry ∈ (entriesFrom table next).take batchSize, entry.1 < final)

include below in
theorem exists_key_of_batch (some_row : entriesFrom table next ≠ []) :
    ∃ key ∈ table.keys, next ≤ key ∧ key < final := by
  obtain ⟨entry, rest, first⟩ := List.exists_cons_of_ne_nil some_row
  have scanned : entry ∈ (entriesFrom table next).take batchSize := by
    rw [first]
    exact List.mem_cons_self
  obtain ⟨member, least⟩ := mem_entriesFrom.mp (List.mem_of_mem_take scanned)
  exact ⟨entry.1, List.mem_map_of_mem member, least, below entry scanned⟩

include ordered below in
theorem BatchesDone.single (short : (entriesFrom table next).length < batchSize) :
    BatchesDone version table next
      (.commit (table.mapIf (fun key => next ≤ key ∧ key < final) (versioned version))) := by
  refine ⟨rfl, ?_, ?_, ?_⟩
  · rw [Progress.last_commit]
    refine Table.mapIf_congr _ fun key present => decide_eq_decide.mpr ?_
    refine ⟨And.left, fun least => ⟨least, ?_⟩⟩
    obtain ⟨entry, member, rfl⟩ := List.mem_map.mp present
    refine below entry ?_
    rw [List.take_of_length_le short.le]
    exact mem_entriesFrom.mpr ⟨member, least⟩
  · intro written member
    rw [List.mem_singleton.mp member]
    exact ⟨final, ordered, rfl, exists_key_of_batch below⟩
  · rw [Nat.div_eq_of_lt short]
    rfl

include ordered below in
theorem BatchesDone.cons (long : batchSize ≤ (entriesFrom table next).length)
    (fewer : (entriesFrom (table.mapIf (fun key => next ≤ key ∧ key < final) (versioned version))
      final).length = (entriesFrom table next).length - batchSize)
    {rest : Progress (Table Height Record) MigrationError}
    (done : BatchesDone version
      (table.mapIf (fun key => next ≤ key ∧ key < final) (versioned version)) final rest) :
    BatchesDone version table next
      ⟨table.mapIf (fun key => next ≤ key ∧ key < final) (versioned version) :: rest.commits,
        rest.failure⟩ := by
  refine ⟨done.succeeds, ?_, ?_, ?_⟩
  · rw [Progress.last, List.getLastD_cons]
    refine done.finishes.trans (mapIf_stretch table ?_ ?_)
    · exact fun key reached => of_decide_eq_true reached
    · intro key
      rw [decide_eq_true_iff, decide_eq_true_iff]
      constructor
      · intro least
        exact (lt_or_ge key final).imp (fun less => ⟨least, less⟩) id
      · rintro (⟨least, _⟩ | past)
        · exact least
        · exact ordered.trans past
  · intro written member
    rcases List.mem_cons.mp member with rfl | later
    · exact ⟨final, ordered, rfl, exists_key_of_batch below⟩
    · obtain ⟨bound, past, same, _⟩ := done.partway written later
      refine ⟨bound, ordered.trans past, ?_, fun some_row => ?_⟩
      · rw [same]
        refine mapIf_stretch table ?_ ?_
        · exact fun key reached => (of_decide_eq_true reached).1
        · intro key
          rw [decide_eq_true_iff, decide_eq_true_iff]
          constructor
          · rintro ⟨least, less⟩
            exact (lt_or_ge key final).imp (fun before => ⟨least, before⟩)
              fun beyond => ⟨beyond, less⟩
          · rintro (⟨least, before⟩ | ⟨beyond, less⟩)
            · exact ⟨least, before.trans_le past⟩
            · exact ⟨ordered.trans beyond, less⟩
      · obtain ⟨key, present, least, less⟩ := exists_key_of_batch below some_row
        exact ⟨key, present, least, less.trans_le past⟩
  · rw [List.length_cons, done.count, fewer]
    unfold batchSize at *
    omega

end Loop

/-- **The batches of a table.** Each batch leaves `batchSize` rows fewer, so the number of rows is
enough fuel; the last batch is the one that scans fewer rows than it could. -/
theorem batchesDone (version : SchemaVersion) (name : Height → RecordId) (fuel : ℕ)
    {table : Table Height Record} {next : Height} (good : UpgradableFrom table next)
    (enough : (entriesFrom table next).length < fuel) :
    BatchesDone version table next
      (migrateBatches (prependMigrator version) name fuel next table) := by
  induction fuel generalizing table next with
  | zero => exact absurd enough (Nat.not_lt_zero _)
  | succ fuel ih =>
    obtain ⟨final, scan, ordered, below, above⟩ := batch_spec version name good
    have fewer := length_entriesFrom_batch below above ordered
      (fun key => next ≤ key ∧ key < final) (versioned version)
    unfold migrateBatches
    simp only [scan, insertAll_batch below above version, List.length_take, min_lt_iff, lt_irrefl,
      false_or]
    split_ifs with short
    · exact BatchesDone.single ordered below short
    · refine BatchesDone.cons ordered below (not_lt.mp short) fewer (ih ?_ ?_)
      · exact upgradableFrom_mapIf version good ordered _
      · rw [fewer]
        unfold batchSize at *
        omega

/-- Transactions a table of `rows` rows takes when it is migrated in batches. -/
def batchCount (rows : ℕ) : ℕ := if rows = 0 then 0 else rows / batchSize + 1

theorem tableMigrated_heightTable (version : SchemaVersion) (name : Height → RecordId)
    {table : Table Height Record} (full : NoEmptyRecord table)
    (room : ∀ key ∈ table.keys, key.val + 1 < 2 ^ 64) :
    TableMigrated version table (migrateHeightTable (prependMigrator version) name table) ∧
      (migrateHeightTable (prependMigrator version) name table).commits.length =
        batchCount table.len := by
  unfold migrateHeightTable
  cases start : table.first with
  | none =>
    have empty : table.entries = [] := List.head?_eq_none_iff.mp start
    have nothing : table.mapValues (versioned version) = table :=
      Table.mapValues_id _ _ fun entry member => by rw [empty] at member; cases member
    refine ⟨⟨rfl, ?_, ?_⟩, ?_⟩
    · rw [Progress.last_done, nothing]
    · intro written member
      cases member
    · rw [batchCount, if_pos (by rw [Table.len, empty]; rfl)]
      rfl
  | some entry =>
    obtain ⟨member, least⟩ := Table.first_eq_some start
    have whole : entriesFrom table entry.1 = table.entries :=
      List.filter_eq_self.mpr fun other inside => by simpa using least other inside
    have good : UpgradableFrom table entry.1 := by
      intro other inside
      rw [whole] at inside
      exact ⟨full other inside, room other.1 (List.mem_map_of_mem inside)⟩
    have loop := batchesDone version name (table.len + 1) good
      (by rw [whole]; exact Nat.lt_succ_self _)
    refine ⟨⟨loop.succeeds, ?_, ?_⟩, ?_⟩
    · refine loop.finishes.trans (Table.mapIf_eq_mapValues _ fun key present => ?_)
      obtain ⟨other, inside, rfl⟩ := List.mem_map.mp present
      exact decide_eq_true (least other inside)
    · intro written committed
      obtain ⟨bound, _, same, reaches⟩ := loop.partway written committed
      refine ⟨_, same, fun some_row => ?_⟩
      obtain ⟨key, present, inside⟩ := reaches (by rw [whole]; exact some_row)
      exact ⟨key, present, decide_eq_true inside⟩
    · have some_row : table.len ≠ 0 := by
        rw [Table.len, Ne, List.length_eq_zero_iff]
        exact List.ne_nil_of_mem member
      rw [loop.count, whole, batchCount, if_neg some_row]
      rfl

theorem scanAll_prepend (version : SchemaVersion) (name : BlockKey → RecordId)
    {entries : List (BlockKey × Record)} (full : ∀ entry ∈ entries, entry.2 ≠ []) :
    scanAll (prependMigrator version) name entries =
      .ok (entries.map fun entry => (entry.1, versioned version entry.2)) := by
  induction entries with
  | nil => rfl
  | cons entry rest ih =>
    rw [scanAll, upgradeRecord_prepend (full entry List.mem_cons_self),
      ih fun other member => full other (List.mem_cons_of_mem _ member)]
    rfl

theorem migrateBlockTable_prepend (version : SchemaVersion) (name : BlockKey → RecordId)
    {table : Table BlockKey Record} (full : NoEmptyRecord table) :
    migrateBlockTable (prependMigrator version) name table =
      .commit (table.mapValues (versioned version)) := by
  have written : table.insertAll (table.entries.map fun entry =>
      (entry.1, versioned version entry.2)) = table.mapValues (versioned version) := by
    rw [Table.insertAll_map_eq_mapIf _ (fun _ member => member) table.keys_nodup]
    exact Table.mapIf_eq_mapValues _ fun key present => decide_eq_true present
  unfold migrateBlockTable
  simp only [scanAll_prepend version name full, written]

theorem versioned_injective (version : SchemaVersion) : Function.Injective (versioned version) :=
  List.cons_injective

theorem versioned_ne (version : SchemaVersion) (old : Record) : versioned version old ≠ old :=
  List.cons_ne_self _ _

/-- A rewritten row shows: no record is its own rewriting. -/
theorem mapIf_versioned_ne [LinearOrder K] {table : Table K Record} {select : K → Bool}
    {key : K} (present : key ∈ table.keys) (selected : select key = true) :
    table.mapIf select (versioned version) ≠ table := by
  intro same
  obtain ⟨value, found⟩ := Option.isSome_iff_exists.mp (Table.mem_keys.mp present)
  have lookup := congrArg (fun written => written.get key) same
  simp only [Table.get_mapIf, found, selected, if_true, Option.map_some] at lookup
  exact versioned_ne version value (Option.some_inj.mp lookup)

theorem mapValues_versioned_eq_self_iff [LinearOrder K] {table : Table K Record} :
    table.mapValues (versioned version) = table ↔ table.len = 0 := by
  rw [Table.len, List.length_eq_zero_iff]
  constructor
  · intro same
    by_contra some_row
    obtain ⟨entry, rest, first⟩ := List.exists_cons_of_ne_nil some_row
    have present : entry.1 ∈ table.keys := by
      rw [Table.keys, first]
      exact List.mem_cons_self
    have rewritten : table.mapIf (fun _ => true) (versioned version) ≠ table :=
      mapIf_versioned_ne present rfl
    exact rewritten ((Table.mapIf_eq_mapValues _ fun _ _ => rfl).trans same)
  · intro empty
    exact Table.mapValues_id _ _ fun entry member => by rw [empty] at member; cases member

theorem mapValues_versioned_ne [LinearOrder K] {table : Table K Record}
    (some_row : table.len ≠ 0) : table.mapValues (versioned version) ≠ table :=
  fun same => some_row (mapValues_versioned_eq_self_iff.mp same)

theorem noEmptyRecord_mapIf [LinearOrder K] {table : Table K Record}
    (full : NoEmptyRecord table) (select : K → Bool) :
    NoEmptyRecord (table.mapIf select (versioned version)) := by
  intro entry member
  obtain ⟨old, inside, rfl⟩ := List.mem_map.mp member
  show (if select old.1 then versioned version old.2 else old.2) ≠ []
  split_ifs
  · exact List.cons_ne_nil _ _
  · exact full old inside

theorem noEmptyRecord_mapValues [LinearOrder K] (table : Table K Record) :
    NoEmptyRecord (table.mapValues (versioned version)) := by
  intro entry member
  obtain ⟨old, inside, rfl⟩ := List.mem_map.mp member
  exact List.cons_ne_nil _ _

end Table

end ArcNode.Store
