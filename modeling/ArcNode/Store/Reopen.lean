/-
**Records across re-opening.**

The rows of four tables are values behind their encoders (`storeCodecs`). This module runs
`Store::open` (with or without the schema upgrade), writes and deletions in any order from a path
that does not exist, next to the abstract content: what was written and not deleted.
**`records_survive`** is the refinement: as long as no upgrade meets a file that has records but no
version row, every live record still decodes to the value that was written. A file created with the
upgrade skipped has no version row, and the first upgrade after that prefixes its records again.
-/

import ArcNode.Codec.Stored
import ArcNode.Lib.Machine
import ArcNode.Store.Resume

namespace ArcNode.Store

open ArcNode.Lib ArcNode.Types ArcNode.Codec

/-! ### Encoders and decoders -/

/-- How the values of one table become records. -/
structure TableCodec (V : Type) where
  encode : V → Option Record
  decode : Record → Except DecodeError V

/-- The value comes back from its own encoding. -/
def TableCodec.RoundTrips {V : Type} (codec : TableCodec V) (value : V) : Prop :=
  ∀ record, codec.encode value = some record → codec.decode record = .ok value

/-- The codecs of the four versioned tables. -/
structure Codecs where
  certificate : TableCodec StoredCommitCertificate
  executionPayload : TableCodec ExecutionPayload
  block : TableCodec ConsensusBlock
  proposalParts : TableCodec ProposalParts

section Store

open StoreCodec ProtobufCodec

variable {PeerId : Type} (formats : Formats PeerId)

/-- The codecs of the store. -/
def storeCodecs : Codecs where
  certificate :=
    ⟨encodeCertificate formats.commitCertificate, decodeCertificate formats.commitCertificate⟩
  executionPayload := ⟨encodeExecutionPayload formats, decodeExecutionPayload formats⟩
  block := ⟨encodeBlock formats, decodeBlock formats⟩
  proposalParts := ⟨encodeProposalParts formats, decodeProposalParts formats⟩

/-- **Within the limits of the decoders every value comes back.** -/
theorem storeCodecs_roundTrip : (∀ stored, StoredCommitCertificate.Bounded stored →
        (storeCodecs formats).certificate.RoundTrips stored) ∧
      (∀ payload, (storeCodecs formats).executionPayload.RoundTrips payload) ∧
      (∀ block, (storeCodecs formats).block.RoundTrips block) ∧
      ∀ parts : ProposalParts, parts.signature.length = 64 →
        (storeCodecs formats).proposalParts.RoundTrips parts := by
  have payloads : Inverts (some : ExecutionPayload → _) (.ok : _ → Except DecodeError _)
      fun _ => True := fun _ _ _ wrote => congrArg _ (Option.some.inj wrote).symm
  exact ⟨fun stored bounded record =>
      inverts_with (inverts_lifted inverts_storeCommitCertificate) stored record bounded,
    fun payload record => inverts_with payloads payload record trivial,
    fun block record => inverts_with inverts_block block record trivial,
    fun parts sized record => inverts_with (inverts_lifted inverts_proposalParts) parts record sized⟩

end Store

/-! ### Opening -/

inductive DbUpgrade where
  | perform
  | skip
  deriving DecidableEq

/-- What the upgrade leaves on disk, also when it ends in an error. -/
def upgradeOnDisk (dbExists : Bool) (store : RawStore) : RawStore :=
  match needsMigration dbExists store with
  | .error _ => store
  | .ok (checked, needed) => if needed then (migrate checked).last checked else checked

/-- `Store::open` on a path: the file after it, and whether it succeeded. -/
def openStore (mode : DbUpgrade) (file : Option RawStore) : RawStore × Bool :=
  let store := file.getD ⟨∅, none⟩
  match mode with
  | .skip => (store, true)
  | .perform => (upgradeOnDisk file.isSome store, (upgrade file.isSome store).toOption.isSome)

/-- No versioned table has a row. -/
def NoRecords (store : RawStore) : Prop :=
  store.db.certificates.len = 0 ∧ store.db.decidedBlocks.len = 0 ∧
    store.db.undecidedBlocks.len = 0 ∧ store.db.pendingProposalParts.len = 0
  deriving Decidable

theorem noEmptyRecord_of_len_eq_zero {K : Type} [LinearOrder K] {table : Table K Record}
    (empty : table.len = 0) : NoEmptyRecord table := by
  intro entry member
  rw [List.length_eq_zero_iff.mp empty] at member
  cases member

theorem NoRecords.migratable {store : RawStore} (nothing : NoRecords store) : Migratable store := by
  obtain ⟨noCertificates, noDecided, noUndecided, noPending⟩ := nothing
  have noKeys : ∀ {table : Table Height Record}, table.len = 0 →
      ∀ key ∈ table.keys, key.val + 1 < 2 ^ 64 := by
    intro table empty key member
    rw [Table.keys, List.length_eq_zero_iff.mp empty] at member
    cases member
  exact ⟨noEmptyRecord_of_len_eq_zero noCertificates, noEmptyRecord_of_len_eq_zero noDecided,
    noEmptyRecord_of_len_eq_zero noUndecided, noEmptyRecord_of_len_eq_zero noPending,
    noKeys noCertificates, noKeys noDecided⟩

/-- The version row is absent, or says that the records are versioned. -/
def VersionSettled (store : RawStore) : Prop :=
  store.schemaVersion = none ∨ store.schemaVersion = some dbSchemaVersion

/-- **An upgrade of a settled file leaves its tables alone**, unless the version row is missing and
there are records. -/
theorem upgradeOnDisk_of_settled {store : RawStore} (settled : VersionSettled store)
    (safe : store.schemaVersion ≠ none ∨ NoRecords store) :
    (upgradeOnDisk true store).db = store.db ∧ VersionSettled (upgradeOnDisk true store) := by
  rcases settled with missing | current
  · have nothing := safe.resolve_left (not_not.mpr missing)
    have checked : needsMigration true store = .ok (setSchemaVersion store schemaV0, true) := by
      unfold needsMigration
      rw [missing]
      rfl
    have nothingV0 : NoRecords (setSchemaVersion store schemaV0) := nothing
    have final := last_migrate rfl nothingV0.migratable
    have tables := versionedTables_of_empty nothingV0.1 nothingV0.2.1 nothingV0.2.2.1
      nothingV0.2.2.2
    unfold upgradeOnDisk
    simp only [checked, if_true, final, migrated, tables]
    exact ⟨rfl, Or.inr rfl⟩
  · have checked : needsMigration true store = .ok (store, false) := by
      unfold needsMigration
      rw [current]
      rfl
    unfold upgradeOnDisk
    simp only [checked]
    exact ⟨rfl, Or.inr current⟩

/-! ### Sessions -/

/-- What was written and not deleted. -/
structure Contents where
  certificates : Table Height StoredCommitCertificate
  decidedBlocks : Table Height ExecutionPayload
  undecidedBlocks : Table BlockKey ConsensusBlock
  pendingProposalParts : Table BlockKey ProposalParts

/-- The file of a path, whether a store is open on it, and the content it stands for. -/
structure Session where
  file : Option RawStore
  isOpen : Bool
  contents : Contents

/-- The path does not exist. -/
def noFile : Session := ⟨none, false, ⟨∅, ∅, ∅, ∅⟩⟩

/-- What happens to a path: opens, writes through the encoders, deletions of any rows. -/
inductive StoreAction where
  | open (mode : DbUpgrade)
  | writeCertificate (height : Height) (value : StoredCommitCertificate)
  | writeExecutionPayload (height : Height) (value : ExecutionPayload)
  | writeBlock (key : BlockKey) (value : ConsensusBlock)
  | writeProposalParts (key : BlockKey) (value : ProposalParts)
  | delete (certificates decidedBlocks : Height → Bool) (undecided pending : BlockKey → Bool)

/-- The rows a deletion does not name. -/
def keepRows {K V : Type} [LinearOrder K] (table : Table K V) (deleted : K → Bool) : Table K V :=
  table.retain fun key _ => !deleted key

/-- A row written through an encoder; a value that does not encode is not written. -/
def writeRow {K V : Type} [LinearOrder K] (encode : V → Option Record) (records : Table K Record)
    (contents : Table K V) (key : K) (value : V) : Table K Record × Table K V :=
  match encode value with
  | none => (records, contents)
  | some record => (records.insert key record, contents.insert key value)

/-- One action on the open store, and on the content it stands for. -/
def act (codecs : Codecs) (store : RawStore) (contents : Contents) :
    StoreAction → RawStore × Contents
  | .open _ => (store, contents)
  | .writeCertificate height value =>
    let (records, live) := writeRow codecs.certificate.encode store.db.certificates
      contents.certificates height value
    ({ store with db := { store.db with certificates := records } },
      { contents with certificates := live })
  | .writeExecutionPayload height value =>
    let (records, live) := writeRow codecs.executionPayload.encode store.db.decidedBlocks
      contents.decidedBlocks height value
    ({ store with db := { store.db with decidedBlocks := records } },
      { contents with decidedBlocks := live })
  | .writeBlock key value =>
    let (records, live) := writeRow codecs.block.encode store.db.undecidedBlocks
      contents.undecidedBlocks key value
    ({ store with db := { store.db with undecidedBlocks := records } },
      { contents with undecidedBlocks := live })
  | .writeProposalParts key value =>
    let (records, live) := writeRow codecs.proposalParts.encode store.db.pendingProposalParts
      contents.pendingProposalParts key value
    ({ store with db := { store.db with pendingProposalParts := records } },
      { contents with pendingProposalParts := live })
  | .delete certificates decidedBlocks undecided pending =>
    ({ store with db := { store.db with
        certificates := keepRows store.db.certificates certificates
        decidedBlocks := keepRows store.db.decidedBlocks decidedBlocks
        undecidedBlocks := keepRows store.db.undecidedBlocks undecided
        pendingProposalParts := keepRows store.db.pendingProposalParts pending } },
      { certificates := keepRows contents.certificates certificates
        decidedBlocks := keepRows contents.decidedBlocks decidedBlocks
        undecidedBlocks := keepRows contents.undecidedBlocks undecided
        pendingProposalParts := keepRows contents.pendingProposalParts pending })

/-- An action that needs an open store; without one nothing happens. -/
def actStep (codecs : Codecs) (session : Session) (action : StoreAction) : Session :=
  match session.file with
  | none => session
  | some store =>
    if session.isOpen then
      let (after, contents) := act codecs store session.contents action
      { session with file := some after, contents := contents }
    else session

def sessionStep (codecs : Codecs) (session : Session) : StoreAction → Session × Unit
  | .open mode =>
    let (after, succeeded) := openStore mode session.file
    ({ session with file := some after, isOpen := succeeded }, ())
  | action => (actStep codecs session action, ())

/-! ### The refinement -/

/-- Every live value of one table is on disk as its own encoding. -/
def TableHolds {K V : Type} [LinearOrder K] (encode : V → Option Record) (contents : Table K V)
    (records : Table K Record) : Prop :=
  ∀ key value, contents.get key = some value →
    ∃ record, encode value = some record ∧ records.get key = some record

/-- Every live value is on disk as its own encoding. -/
structure Holds (codecs : Codecs) (contents : Contents) (store : RawStore) : Prop where
  certificates : TableHolds codecs.certificate.encode contents.certificates store.db.certificates
  decidedBlocks : TableHolds codecs.executionPayload.encode contents.decidedBlocks
    store.db.decidedBlocks
  undecidedBlocks : TableHolds codecs.block.encode contents.undecidedBlocks
    store.db.undecidedBlocks
  pendingProposalParts : TableHolds codecs.proposalParts.encode contents.pendingProposalParts
    store.db.pendingProposalParts

section TableHolds

variable {K V : Type} [LinearOrder K] {encode : V → Option Record} {contents : Table K V}
  {records : Table K Record}

theorem tableHolds_empty (records : Table K Record) : TableHolds encode (∅ : Table K V) records :=
  fun _ _ found => by cases found

theorem TableHolds.writeRow (holds : TableHolds encode contents records) (key : K) (value : V) :
    TableHolds encode (writeRow encode records contents key value).2
      (writeRow encode records contents key value).1 := by
  unfold Store.writeRow
  cases encoded : encode value with
  | none => exact holds
  | some record =>
    intro other found present
    simp only [Table.get_insert] at present ⊢
    by_cases same : other = key
    · rw [if_pos same] at present ⊢
      exact ⟨record, Option.some_inj.mp present ▸ encoded, rfl⟩
    · rw [if_neg same] at present ⊢
      exact holds other found present

theorem TableHolds.keepRows (holds : TableHolds encode contents records) (deleted : K → Bool) :
    TableHolds encode (keepRows contents deleted) (keepRows records deleted) := by
  intro key value present
  rw [Store.keepRows, Table.get_retain, Option.filter_eq_some_iff] at present
  obtain ⟨record, encoded, found⟩ := holds key value present.1
  refine ⟨record, encoded, ?_⟩
  rw [Store.keepRows, Table.get_retain, Option.filter_eq_some_iff]
  exact ⟨found, present.2⟩

end TableHolds

variable {codecs : Codecs}

/-- **One action keeps the refinement.** -/
theorem Holds.act {store : RawStore} {contents : Contents}
    (holds : Holds codecs contents store) (action : StoreAction) :
    Holds codecs (act codecs store contents action).2 (act codecs store contents action).1 := by
  obtain ⟨certificates, decided, undecided, pending⟩ := holds
  cases action with
  | «open» mode => exact ⟨certificates, decided, undecided, pending⟩
  | writeCertificate height value =>
    exact ⟨certificates.writeRow height value, decided, undecided, pending⟩
  | writeExecutionPayload height value =>
    exact ⟨certificates, decided.writeRow height value, undecided, pending⟩
  | writeBlock key value => exact ⟨certificates, decided, undecided.writeRow key value, pending⟩
  | writeProposalParts key value =>
    exact ⟨certificates, decided, undecided, pending.writeRow key value⟩
  | delete deletedCertificates deletedDecided deletedUndecided deletedPending =>
    exact ⟨certificates.keepRows _, decided.keepRows _, undecided.keepRows _, pending.keepRows _⟩

theorem schemaVersion_act (codecs : Codecs) (store : RawStore) (contents : Contents)
    (action : StoreAction) :
    (act codecs store contents action).1.schemaVersion = store.schemaVersion := by
  cases action <;> rfl

/-- What holds between two steps of a path. -/
structure SessionHolds (codecs : Codecs) (session : Session) : Prop where
  settled : ∀ store, session.file = some store → VersionSettled store
  holds : ∀ store, session.file = some store → Holds codecs session.contents store
  nothing : session.file = none → session.contents = ⟨∅, ∅, ∅, ∅⟩

/-- An upgrade does not meet a file that has records but no version row. -/
def SafeOpen (session : Session) (action : StoreAction) : Prop :=
  action = .open .perform → ∀ store ∈ session.file, store.schemaVersion ≠ none ∨ NoRecords store

theorem holds_of_db_eq {contents : Contents} {before after : RawStore}
    (holds : Holds codecs contents before) (same : after.db = before.db) :
    Holds codecs contents after := by
  obtain ⟨certificates, decided, undecided, pending⟩ := holds
  exact ⟨same ▸ certificates, same ▸ decided, same ▸ undecided, same ▸ pending⟩

theorem holds_nothing (codecs : Codecs) (store : RawStore) : Holds codecs ⟨∅, ∅, ∅, ∅⟩ store :=
  ⟨tableHolds_empty _, tableHolds_empty _, tableHolds_empty _, tableHolds_empty _⟩

/-- **An open keeps the refinement**, under the condition of `SafeOpen`. -/
theorem sessionHolds_open {session : Session}
    (before : SessionHolds codecs session) (mode : DbUpgrade)
    (safe : SafeOpen session (.open mode)) :
    SessionHolds codecs (sessionStep codecs session (.open mode)).1 := by
  have opened : VersionSettled (openStore mode session.file).1 ∧
      Holds codecs session.contents (openStore mode session.file).1 := by
    cases present : session.file with
    | none =>
      rw [before.nothing present]
      cases mode with
      | skip => exact ⟨Or.inl rfl, holds_nothing _ _⟩
      | perform => exact ⟨Or.inr rfl, holds_nothing _ _⟩
    | some store =>
      have settled := before.settled store present
      have holds := before.holds store present
      cases mode with
      | skip => exact ⟨settled, holds⟩
      | perform =>
        obtain ⟨same, after⟩ := upgradeOnDisk_of_settled settled (safe rfl store present)
        exact ⟨after, holds_of_db_eq holds same⟩
  refine ⟨fun store found => ?_, fun store found => ?_, fun missing => ?_⟩
  · exact Option.some_inj.mp found ▸ opened.1
  · exact Option.some_inj.mp found ▸ opened.2
  · cases missing

theorem sessionHolds_actStep {session : Session}
    (before : SessionHolds codecs session) (action : StoreAction) :
    SessionHolds codecs (actStep codecs session action) := by
  unfold actStep
  cases present : session.file with
  | none => exact before
  | some store =>
    simp only []
    split_ifs with opened
    · have settled := before.settled store present
      have after := (before.holds store present).act action
      have version := schemaVersion_act codecs store session.contents action
      refine ⟨fun written found => ?_, fun written found => ?_, fun missing => ?_⟩
      · rw [← Option.some_inj.mp found, VersionSettled, version]
        exact settled
      · rw [← Option.some_inj.mp found]
        exact after
      · cases missing
    · exact before

theorem sessionHolds_step (session : Session) (action : StoreAction)
    (before : SessionHolds codecs session) (safe : SafeOpen session action) :
    SessionHolds codecs (sessionStep codecs session action).1 := by
  cases action with
  | «open» mode => exact sessionHolds_open before mode safe
  | _ =>
    dsimp only [sessionStep]
    exact sessionHolds_actStep before _

/-! ### Live records decode -/

/-- Every live value that its codec gives back is read back from its row. -/
def TableSurvives {K V : Type} [LinearOrder K] (codec : TableCodec V) (contents : Table K V)
    (records : Table K Record) : Prop :=
  ∀ key value, contents.get key = some value → codec.RoundTrips value →
    (records.get key).map codec.decode = some (.ok value)

/-- **Every record written and not deleted decodes to the value that was written.** -/
structure RecordsSurvive (codecs : Codecs) (contents : Contents) (store : RawStore) : Prop where
  certificates : TableSurvives codecs.certificate contents.certificates store.db.certificates
  decidedBlocks : TableSurvives codecs.executionPayload contents.decidedBlocks store.db.decidedBlocks
  undecidedBlocks : TableSurvives codecs.block contents.undecidedBlocks store.db.undecidedBlocks
  pendingProposalParts : TableSurvives codecs.proposalParts contents.pendingProposalParts
    store.db.pendingProposalParts

theorem TableHolds.survives {K V : Type} [LinearOrder K] {codec : TableCodec V}
    {contents : Table K V} {records : Table K Record}
    (holds : TableHolds codec.encode contents records) : TableSurvives codec contents records := by
  intro key value live comesBack
  obtain ⟨record, encoded, found⟩ := holds key value live
  rw [found, Option.map_some, comesBack record encoded]

/-- **Records survive re-opening**: for every sequence of opens, writes and deletions from a path
that does not exist, in which no upgrade meets records without a version row. -/
theorem records_survive (codecs : Codecs) (actions : List StoreAction)
    (safe : Along (sessionStep codecs) SafeOpen noFile actions) :
    ∀ store, (run (sessionStep codecs) noFile actions).file = some store →
      RecordsSurvive codecs (run (sessionStep codecs) noFile actions).contents store := by
  have start : SessionHolds codecs noFile :=
    ⟨fun _ found => (Option.some_ne_none _ found.symm).elim,
      fun _ found => (Option.some_ne_none _ found.symm).elim, fun _ => rfl⟩
  have after := run_invariant sessionHolds_step start safe
  intro store found
  obtain ⟨certificates, decided, undecided, pending⟩ := after.holds store found
  exact ⟨certificates.survives, decided.survives, undecided.survives, pending.survives⟩

/-- The certificate of block 7 at height 1, as a commit stores it. -/
def firstCertificate : StoredCommitCertificate where
  certificate := ⟨1, .some 0, 7, []⟩
  certificateType := .minimal
  proposer := some 0

/-- The codec of certificates in protobuf; nothing is written to the other tables. -/
def certificateCodecs : Codecs where
  certificate := ⟨StoreCodec.encodeCertificate (Protobuf.wireFormat _),
    StoreCodec.decodeCertificate (Protobuf.wireFormat _)⟩
  executionPayload := ⟨fun _ => none, fun _ => .error .emptyVersion⟩
  block := ⟨fun _ => none, fun _ => .error .emptyVersion⟩
  proposalParts := ⟨fun _ => none, fun _ => .error .emptyVersion⟩

/-- Created with the upgrade skipped, written to, and opened again with the upgrade. -/
def skipThenPerform : List StoreAction :=
  [.open .skip, .writeCertificate 1 firstCertificate, .open .perform]

/-- After that the certificate has two version bytes and does not decode. -/
theorem not_records_survive_skipThenPerform :
    ¬ ∀ store, (run (sessionStep certificateCodecs) noFile skipThenPerform).file = some store →
      RecordsSurvive certificateCodecs
        (run (sessionStep certificateCodecs) noFile skipThenPerform).contents store := by
  intro survive
  have comesBack : certificateCodecs.certificate.RoundTrips firstCertificate := fun record =>
    StoreCodec.inverts_with (StoreCodec.inverts_lifted StoreCodec.inverts_storeCommitCertificate)
      firstCertificate record ⟨Nat.zero_le _, fun _ none => nomatch none⟩
  have row := congrArg (Option.map Except.toOption)
    ((survive _ rfl).certificates 1 firstCertificate (by decide +kernel) comesBack)
  revert row
  decide +kernel

/-- Created with the upgrade, written to, and opened again in both modes. -/
def performThenSkip : List StoreAction :=
  [.open .perform, .writeCertificate 1 firstCertificate, .open .skip, .open .perform]

theorem records_survive_performThenSkip :
    ∃ store, (run (sessionStep certificateCodecs) noFile performThenSkip).file = some store ∧
      (store.db.certificates.get 1).isSome ∧ RecordsSurvive certificateCodecs
        (run (sessionStep certificateCodecs) noFile performThenSkip).contents store := by
  refine ⟨_, rfl, by decide +kernel, records_survive certificateCodecs performThenSkip
    ⟨?_, ?_, ?_, ?_, trivial⟩ _ rfl⟩
  · intro _ store found
    cases found
  · intro other
    cases other
  · intro other
    cases other
  · intro _ store found
    left
    rw [← Option.some_inj.mp found]
    decide

end ArcNode.Store
