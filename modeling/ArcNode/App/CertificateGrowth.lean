/-
**The certificate row of a height, over decisions and finalizations.**

Two handlers write the row: `Decided` stores the certificate of the decision as a minimal one,
`Finalized` replaces it by an extended certificate that has to contain every signature of the stored
one. A finalization that fails in the engine leaves the height to be restarted with its row in
place, and the next decision overwrites that row without a look at it
(`signatures_lost_by_second_decision`). As long as every decision carries the signatures that are
stored for its height, a row only gains signatures (**`certificates_only_gain`**).
-/

import ArcNode.App.ProposalParts
import ArcNode.Lib.Machine
import ArcNode.Store.Pruning
import ArcNode.Store.RangeQuery

namespace ArcNode.App.Growth

open ArcNode.Lib ArcNode.Types ArcNode.Store ArcNode.Codec

/-! ### The two writers -/

/-- Why a certificate is not extended; the data are those of the error's text. -/
inductive ExtendError where
  | noExisting (height : Height)
  | undecodable (height : Height) (error : Codec.DecodeError)
  | differentHeight (height existing : Height)
  | differentRound (height : Height) (existing : Round)
  | differentValueId (height : Height) (existing : BlockHash)
  | missingSignature (height : Height) (validator : Address)
  | encoding

/-- The formats of the two rows of a decision: prost for the certificate, SSZ for the payload. -/
structure RowFormats where
  commitCertificate : WireFormat Proto.StoreCommitCertificate
  asSszBytes : ExecutionPayload → List Byte

section Writers

variable (formats : RowFormats) (config : PruningConfig)

variable (db : Db Schema.raw)

/-- `insert_certificate`; a nil round is not encoded. -/
def insertCertificate (certificate : CommitCertificate)
    (certificateType : CommitCertificateType) (proposer : Option Address) :
    Except ExtendError (Db Schema.raw) :=
  match StoreCodec.encodeCertificate formats.commitCertificate
      ⟨certificate, certificateType, proposer⟩ with
  | none => .error .encoding
  | some bytes => .ok { db with certificates := db.certificates.insert certificate.height bytes }

/-- `extend_certificate`: all in one transaction, which an error aborts. -/
def extendCertificate (certificate : CommitCertificate) : Except ExtendError (Db Schema.raw) :=
  match db.certificates.get certificate.height with
  | none => .error (.noExisting certificate.height)
  | some bytes =>
    match StoreCodec.decodeCertificate formats.commitCertificate bytes with
    | .error error => .error (.undecodable certificate.height error)
    | .ok existing =>
      if certificate.height ≠ existing.certificate.height then
        .error (.differentHeight certificate.height existing.certificate.height)
      else if certificate.round ≠ existing.certificate.round then
        .error (.differentRound certificate.height existing.certificate.round)
      else if certificate.valueId ≠ existing.certificate.valueId then
        .error (.differentValueId certificate.height existing.certificate.valueId)
      else
        match existing.certificate.commitSignatures.find? fun signature =>
            signature ∉ certificate.commitSignatures with
        | some signature => .error (.missingSignature certificate.height signature.address)
        | none => insertCertificate formats db certificate .extended existing.proposer

/-- The database part of `commit` on the bytes of the file. A certificate that cannot be encoded
fails the store, before anything else is written. -/
def storeDecided (block : DecidedBlock) (proposer : Address) (finalizes : Bool) :
    Option (Db Schema.raw) := do
  let certificate ← StoreCodec.encodeCertificate formats.commitCertificate
    ⟨block.certificate, .minimal, some proposer⟩
  let payload := 3 :: formats.asSszBytes block.executionPayload
  some (Store.commit config db ⟨block.certificate.height, certificate, payload, finalizes⟩)

/-! ### Runs -/

/-- What the application does with the messages of consensus about decisions. -/
inductive Event where
  /-- `Decided`, and no block to commit was found. -/
  | refused
  /-- `Decided`, and the block is not bound to its place: the node halts. -/
  | halted
  /-- The process starts again: the decision it held is lost. -/
  | restarted
  /-- `Decided`, and the block is committed; the engine finalizes it or not. -/
  | committed (block : DecidedBlock) (proposer : Address) (finalizes : Bool)
  /-- `Finalized`, with the certificate that has all signatures of the finalization period. -/
  | finalized (certificate : CommitCertificate)

/-- The database, and the decision that waits for its `Finalized`: a success or a failure. -/
structure State where
  db : Db Schema.raw
  decision : Option Bool

/-- One message. After a failure `Finalized` restarts the height, after a success it starts the
next; a certificate that cannot be extended is logged. -/
def step (state : State) : Event → State × Unit
  | .refused => ({ state with decision := some false }, ())
  | .halted => (state, ())
  | .restarted => ({ state with decision := none }, ())
  | .committed block proposer finalizes =>
    match storeDecided formats config state.db block proposer finalizes with
    | none => ({ state with decision := some false }, ())
    | some db => (⟨db, some finalizes⟩, ())
  | .finalized certificate =>
    match state.decision with
    | none => (state, ())
    | some _ =>
      match extendCertificate formats state.db certificate with
      | .ok db => (⟨db, none⟩, ())
      | .error _ => (⟨state.db, none⟩, ())

end Writers

/-! ### What a row keeps -/

/-- **A certificate that only gained**: its value is the same, its proposer is still recorded and
every signature is still there. -/
structure Gains (before after : StoredCommitCertificate) : Prop where
  valueId : after.certificate.valueId = before.certificate.valueId
  proposer : before.proposer.isSome → after.proposer.isSome
  signatures : before.certificate.commitSignatures ⊆ after.certificate.commitSignatures

theorem Gains.refl (stored : StoredCommitCertificate) : Gains stored stored :=
  ⟨rfl, id, List.Subset.refl _⟩

theorem Gains.trans {first second third : StoredCommitCertificate} (early : Gains first second)
    (late : Gains second third) : Gains first third :=
  ⟨late.valueId.trans early.valueId, late.proposer ∘ early.proposer,
    List.Subset.trans early.signatures late.signatures⟩

/-- **A message may prune a certificate**: it finalizes a block, certificates are pruned at all, and
the height is below those that are kept. -/
def Prunes (config : PruningConfig) (height : Height) : Event → Prop
  | .committed block _ finalizes => finalizes = true ∧ config.enabled = true ∧
    height < config.effectiveCertificatesMinHeight block.certificate.height
  | _ => False

/-- A decision for the height, if the message is one, is by this proposer. -/
def Repeats (height : Height) (proposer : Option Address) : Event → Prop
  | .committed block decided _ => block.certificate.height = height → proposer = some decided
  | _ => True

section Spec

variable (formats : RowFormats) (config : PruningConfig)

/-- The certificate that `get_certificate` reads for a height. -/
def Reads (db : Db Schema.raw) (height : Height) (stored : StoredCommitCertificate) : Prop :=
  getCertificate formats.commitCertificate db (some height) = .ok (some stored)

/-- **The condition on a message**: its certificate can be decoded again, and a decision for a
height that has a certificate is for the same value and carries the signatures that are stored. -/
def Carries (state : State) : Event → Prop
  | .committed block proposer _ =>
    StoreCodec.StoredCommitCertificate.Bounded ⟨block.certificate, .minimal, some proposer⟩ ∧
    ∀ stored, Reads formats state.db block.certificate.height stored →
      block.certificate.valueId = stored.certificate.valueId ∧
        stored.certificate.commitSignatures ⊆ block.certificate.commitSignatures
  | .finalized certificate => ∀ proposer,
    StoreCodec.StoredCommitCertificate.Bounded ⟨certificate, .extended, proposer⟩
  | _ => True

/-- **What one message does to the certificates.** -/
structure Keeps (state : State) (event : Event) : Prop where
  /-- A stored certificate gains, and its proposer stays unless a decision names another; only
  pruning takes the row away. -/
  gains : ∀ height before, Reads formats state.db height before → (Prunes config height event ∧
      (step formats config state event).1.db.certificates.get height = none) ∨
    ∃ after, Reads formats (step formats config state event).1.db height after ∧
      Gains before after ∧ (Repeats height before.proposer event → after.proposer = before.proposer)
  /-- A decision that is stored can be read, unless its height is pruned at once. -/
  decided : ∀ block proposer finalizes db, event = .committed block proposer finalizes →
    storeDecided formats config state.db block proposer finalizes = some db →
    (step formats config state event).1.db = db ∧ ((Prunes config block.certificate.height event ∧
          db.certificates.get block.certificate.height = none) ∨
        Reads formats db block.certificate.height ⟨block.certificate, .minimal, some proposer⟩)
  /-- An extended certificate can be read, with the proposer that was recorded. -/
  extended : ∀ certificate db, event = .finalized certificate → state.decision.isSome →
    extendCertificate formats state.db certificate = .ok db →
    (step formats config state event).1.db = db ∧
      ∃ existing, Reads formats state.db certificate.height existing ∧
        Reads formats db certificate.height ⟨certificate, .extended, existing.proposer⟩
  /-- A rejected one changes nothing. -/
  rejected : ∀ certificate error, event = .finalized certificate →
    extendCertificate formats state.db certificate = .error error →
    (step formats config state event).1.db = state.db

variable {formats config} {db db' : Db Schema.raw} {certificate : CommitCertificate} {height : Height}
  {bytes : List Byte} {stored : StoredCommitCertificate}

theorem reads_iff : Reads formats db height stored ↔
    ∃ bytes, db.certificates.get height = some bytes ∧
      StoreCodec.decodeCertificate formats.commitCertificate bytes = .ok stored := by
  unfold Reads getCertificate rowAt
  rw [Except.ok.injEq, Option.bind_eq_some_iff]
  refine exists_congr fun bytes => and_congr_right fun _ => ?_
  cases StoreCodec.decodeCertificate formats.commitCertificate bytes <;> simp [Except.toOption]

theorem decode_of_encode (bounded : StoreCodec.StoredCommitCertificate.Bounded stored)
    (encoded : StoreCodec.encodeCertificate formats.commitCertificate stored = some bytes) :
    StoreCodec.decodeCertificate formats.commitCertificate bytes = .ok stored :=
  StoreCodec.inverts_with (StoreCodec.inverts_lifted StoreCodec.inverts_storeCommitCertificate)
    stored bytes bounded encoded

theorem Reads.unique {other : StoredCommitCertificate} (first : Reads formats db height stored)
    (second : Reads formats db height other) : stored = other :=
  Option.some.inj (Except.ok.inj (first.symm.trans second))

theorem certificates_pruneHistoricalCerts (latest : Height) :
    ((config.enabled = true ∧ height < config.effectiveCertificatesMinHeight latest) ∧
        (pruneHistoricalCerts config db latest).certificates.get height = none) ∨
      (pruneHistoricalCerts config db latest).certificates.get height =
        db.certificates.get height := by
  unfold pruneHistoricalCerts
  cases config.enabled with
  | false => exact Or.inr rfl
  | true =>
    rw [if_pos rfl]
    dsimp only
    rw [pruneHeightTableBatch, get_foldl_remove]
    split_ifs with stale
    · exact Or.inl ⟨⟨rfl, lt_of_mem_staleKeys stale⟩, rfl⟩
    · exact Or.inr rfl

theorem certificates_commit_cases (config : PruningConfig) (db : Db Schema.raw) (height : Height)
    (decision : Commit Schema.raw) :
    ((decision.finalizes = true ∧ config.enabled = true ∧
        height < config.effectiveCertificatesMinHeight decision.height) ∧
        (Store.commit config db decision).certificates.get height = none) ∨
      (Store.commit config db decision).certificates.get height =
        (db.certificates.insert decision.height decision.certificate).get height := by
  unfold Store.commit
  dsimp only
  cases decision.finalizes with
  | false => exact Or.inr rfl
  | true =>
    exact (certificates_pruneHistoricalCerts decision.height).imp_left fun pruned =>
      ⟨⟨rfl, pruned.1⟩, pruned.2⟩

theorem storeDecided_eq_some {block : DecidedBlock} {proposer : Address} {finalizes : Bool}
    (stores : storeDecided formats config db block proposer finalizes = some db') :
    ∃ row payload, StoreCodec.encodeCertificate formats.commitCertificate
        ⟨block.certificate, .minimal, some proposer⟩ = some row ∧
      db' = Store.commit config db ⟨block.certificate.height, row, payload, finalizes⟩ := by
  obtain ⟨row, encoded, same⟩ := Option.bind_eq_some_iff.mp stores
  exact ⟨row, _, encoded, (Option.some.inj same).symm⟩

/-- **A successful extension**: the stored certificate is one of the same height, round and value,
its signatures are all in the new one, and the new one is written with its proposer. -/
theorem extendCertificate_eq_ok (extends_ : extendCertificate formats db certificate = .ok db') :
    ∃ existing row, Reads formats db certificate.height existing ∧
      certificate.valueId = existing.certificate.valueId ∧
      existing.certificate.commitSignatures ⊆ certificate.commitSignatures ∧
      StoreCodec.encodeCertificate formats.commitCertificate
        ⟨certificate, .extended, existing.proposer⟩ = some row ∧
      db' = { db with certificates := db.certificates.insert certificate.height row } := by
  unfold extendCertificate at extends_
  cases found : db.certificates.get certificate.height with
  | none =>
    rw [found] at extends_
    cases extends_
  | some bytes =>
    rw [found] at extends_
    dsimp only at extends_
    cases decoded : StoreCodec.decodeCertificate formats.commitCertificate bytes with
    | error error =>
      rw [decoded] at extends_
      cases extends_
    | ok existing =>
      rw [decoded] at extends_
      dsimp only at extends_
      split_ifs at extends_ with height round valueId
      cases missing : existing.certificate.commitSignatures.find? fun signature =>
          signature ∉ certificate.commitSignatures with
      | some signature =>
        rw [missing] at extends_
        cases extends_
      | none =>
        rw [missing] at extends_
        dsimp only [insertCertificate] at extends_
        cases encoded : StoreCodec.encodeCertificate formats.commitCertificate
            ⟨certificate, .extended, existing.proposer⟩ with
        | none =>
          rw [encoded] at extends_
          cases extends_
        | some row =>
          rw [encoded] at extends_
          refine ⟨existing, row, reads_iff.mpr ⟨bytes, found, decoded⟩, not_not.mp valueId, ?_,
            encoded, (Except.ok.inj extends_).symm⟩
          intro signature member
          simpa using List.find?_eq_none.mp missing signature member

theorem reads_insert {row : List Byte} {other : Height} {before : StoredCommitCertificate}
    (decodes : StoreCodec.decodeCertificate formats.commitCertificate row = .ok stored)
    (rows : db'.certificates.get other = (db.certificates.insert height row).get other)
    (reads : Reads formats db other before) :
    (other = height ∧ Reads formats db' other stored) ∨ Reads formats db' other before := by
  obtain ⟨bytes, found, decoded⟩ := reads_iff.mp reads
  by_cases same : other = height
  · rw [same, Table.get_insert_self] at rows
    exact .inl ⟨same, reads_iff.mpr ⟨row, same ▸ rows, decodes⟩⟩
  · rw [Table.get_insert_of_ne _ _ same, found] at rows
    exact .inr (reads_iff.mpr ⟨bytes, rows, decoded⟩)

/-! ### The messages, one by one -/

variable {state : State}

theorem gains_of_db_eq {event : Event} (same : (step formats config state event).1.db = state.db)
    {before : StoredCommitCertificate} (reads : Reads formats state.db height before) :
    ∃ after, Reads formats (step formats config state event).1.db height after ∧
      Gains before after ∧ (Repeats height before.proposer event → after.proposer = before.proposer) :=
  ⟨before, same.symm ▸ reads, Gains.refl before, fun _ => rfl⟩

theorem keeps_of_db_eq {event : Event}
    (same : (step formats config state event).1.db = state.db)
    (uncommitted : ∀ block proposer finalizes, event ≠ .committed block proposer finalizes)
    (unfinalized : ∀ certificate, event ≠ .finalized certificate) :
    Keeps formats config state event where
  gains _ _ reads := Or.inr (gains_of_db_eq same reads)
  decided block proposer finalizes _ is := absurd is (uncommitted block proposer finalizes)
  extended certificate _ is := absurd is (unfinalized certificate)
  rejected certificate _ is := absurd is (unfinalized certificate)

theorem keeps_committed {block : DecidedBlock} {proposer : Address} {finalizes : Bool}
    (carries : Carries formats state (.committed block proposer finalizes)) :
    Keeps formats config state (.committed block proposer finalizes) := by
  obtain ⟨bounded, superset⟩ := carries
  cases stores : storeDecided formats config state.db block proposer finalizes with
  | none =>
    have unchanged : (step formats config state (.committed block proposer finalizes)).1.db =
        state.db := by
      dsimp only [step]
      rw [stores]
    refine ⟨fun _ _ reads => Or.inr (gains_of_db_eq unchanged reads),
      ?_, by rintro _ _ ⟨⟩, by rintro _ _ ⟨⟩⟩
    rintro _ _ _ db ⟨⟩ again
    rw [stores] at again
    cases again
  | some db =>
    have after : (step formats config state (.committed block proposer finalizes)).1.db = db := by
      dsimp only [step]
      rw [stores]
    obtain ⟨row, payload, encoded, committed⟩ := storeDecided_eq_some stores
    have decodes := decode_of_encode bounded encoded
    have pruned := fun height => certificates_commit_cases config state.db height
      ⟨block.certificate.height, row, payload, finalizes⟩
    refine ⟨?_, ?_, by rintro _ _ ⟨⟩, by rintro _ _ ⟨⟩⟩
    · intro height before reads
      rw [after, committed]
      rcases pruned height with gone | rows
      · exact .inl gone
      right
      rcases reads_insert decodes rows reads with ⟨rfl, now⟩ | still
      · obtain ⟨value, signatures⟩ := superset before reads
        exact ⟨_, now, ⟨value, fun _ => rfl, signatures⟩, fun repeats => (repeats rfl).symm⟩
      · exact ⟨before, still, Gains.refl before, fun _ => rfl⟩
    · rintro _ _ _ db' ⟨⟩ again
      obtain rfl : db = db' := Option.some.inj (stores.symm.trans again)
      refine ⟨after, ?_⟩
      rw [committed]
      rcases pruned block.certificate.height with gone | rows
      · exact .inl gone
      · refine .inr (reads_iff.mpr ⟨row, ?_, decodes⟩)
        rw [rows, Table.get_insert_self]

theorem keeps_finalized {certificate : CommitCertificate}
    (bounded : ∀ proposer,
      StoreCodec.StoredCommitCertificate.Bounded ⟨certificate, .extended, proposer⟩) :
    Keeps formats config state (.finalized certificate) := by
  obtain ⟨db, decision⟩ := state
  refine ⟨?_, by rintro _ _ _ _ ⟨⟩, ?_, ?_⟩
  · intro height before reads
    right
    dsimp only [step]
    cases decision with
    | none => exact ⟨before, reads, Gains.refl before, fun _ => rfl⟩
    | some success =>
      dsimp only at reads ⊢
      cases extends_ : extendCertificate formats db certificate with
      | error error => exact ⟨before, reads, Gains.refl before, fun _ => rfl⟩
      | ok after =>
        obtain ⟨existing, row, found, value, signatures, encoded, rfl⟩ :=
          extendCertificate_eq_ok extends_
        have rows : (({ db with certificates := db.certificates.insert certificate.height row } :
            Db Schema.raw).certificates.get height) =
            (db.certificates.insert certificate.height row).get height := rfl
        rcases reads_insert (decode_of_encode (bounded _) encoded) rows reads with ⟨rfl, now⟩ | still
        · obtain rfl := found.unique reads
          exact ⟨_, now, ⟨value, id, signatures⟩, fun _ => rfl⟩
        · exact ⟨before, still, Gains.refl before, fun _ => rfl⟩
  · rintro _ after ⟨⟩ waiting extends_
    obtain ⟨success, rfl⟩ := Option.isSome_iff_exists.mp waiting
    obtain ⟨existing, row, found, -, -, encoded, written⟩ := extendCertificate_eq_ok extends_
    refine ⟨?_, existing, found, reads_iff.mpr ⟨row, ?_, decode_of_encode (bounded _) encoded⟩⟩
    · dsimp only [step]
      rw [extends_]
    · rw [written]
      exact Table.get_insert_self _ _ _
  · rintro _ error ⟨⟩ fails
    dsimp only [step]
    cases decision with
    | none => rfl
    | some success =>
      dsimp only
      rw [fails]

theorem keeps_step {event : Event} (carries : Carries formats state event) :
    Keeps formats config state event := by
  cases event with
  | refused | halted | restarted => exact keeps_of_db_eq rfl (by rintro _ _ _ ⟨⟩) (by rintro _ ⟨⟩)
  | committed block proposer finalizes => exact keeps_committed carries
  | finalized certificate => exact keeps_finalized carries

theorem gains_of_run {events : List Event}
    (carries : Along (step formats config) (Carries formats) state events)
    {before : StoredCommitCertificate} (reads : Reads formats state.db height before)
    (there : ∀ front, front <+: events →
      (run (step formats config) state front).db.certificates.get height ≠ none) :
    ∃ after, Reads formats (run (step formats config) state events).db height after ∧
      Gains before after ∧
      ((∀ event ∈ events, Repeats height before.proposer event) → after.proposer = before.proposer) := by
  induction events generalizing state before with
  | nil => exact ⟨before, reads, Gains.refl before, fun _ => rfl⟩
  | cons event rest ih =>
    obtain ⟨now, later⟩ := carries
    have present : (step formats config state event).1.db.certificates.get height ≠ none :=
      there [event] (List.prefix_append [event] rest)
    obtain ⟨middle, found, early, first⟩ :=
      ((keeps_step now).gains height before reads).resolve_left fun pruned => present pruned.2
    obtain ⟨after, last, late, others⟩ := ih later found fun front inside =>
      there (event :: front) (List.prefix_cons_inj event |>.mpr inside)
    refine ⟨after, last, early.trans late, fun repeats => ?_⟩
    have same := first (repeats event List.mem_cons_self)
    rw [same] at others
    exact others fun other member => repeats other (List.mem_cons_of_mem _ member)

end Spec

/-- **A stored certificate only gains**, in every run of decisions, finalizations, failed
finalizations and rejected extensions in which every decision carries the signatures that are stored
for its height: at every message, and over the whole run for a row that is not pruned. Its proposer
stays the same as long as the decisions for its height name it. -/
theorem certificates_only_gain (formats : RowFormats) (config : PruningConfig)
    (start : State) (events : List Event)
    (carries : Along (step formats config) (Carries formats) start events) :
    Along (step formats config) (Keeps formats config) start events ∧
      ∀ height before, Reads formats start.db height before → (∀ front, front <+: events →
          (run (step formats config) start front).db.certificates.get height ≠ none) →
        ∃ after, Reads formats (run (step formats config) start events).db height after ∧
          Gains before after ∧
          ((∀ event ∈ events, Repeats height before.proposer event) →
            after.proposer = before.proposer) := by
  refine ⟨?_, fun height before reads there => gains_of_run carries reads there⟩
  exact along_of_invariant (fun _ _ (_ : True) _ => trivial) (fun _ _ _ admitted => keeps_step admitted)
    trivial carries

/-! ### A second decision -/

def firstPayload : ExecutionPayload := ⟨4, 1, 0, 5, []⟩

/-- The certificate of its decision, with the signatures of some validators. -/
def signedBy (validators : List Address) : CommitCertificate :=
  ⟨1, .some 0, 5, validators.map fun validator => ⟨validator, List.replicate 64 0⟩⟩

def decidedBy (validators : List Address) : DecidedBlock := ⟨firstPayload, signedBy validators, rfl⟩

theorem bounded_signedBy {validators : List Address}
    (few : validators.length ≤ ProtobufCodec.maxSignaturesPerCertificate)
    (certificateType : CommitCertificateType) (proposer : Option Address) :
    StoreCodec.StoredCommitCertificate.Bounded ⟨signedBy validators, certificateType, proposer⟩ := by
  refine ⟨List.length_map _ |>.trans_le few, ?_⟩
  intro signature member
  obtain ⟨validator, -, rfl⟩ := List.mem_map.mp member
  exact List.length_replicate

section Second

variable (formats : RowFormats)

/-- Three validators decide, and the engine fails. -/
def undecided : State := (step formats ⟨0, 0⟩ ⟨∅, none⟩ (.committed (decidedBy [1, 2, 3]) 7 false)).1

theorem reads_decidedBy (state : State) {validators : List Address}
    (few : validators.length ≤ ProtobufCodec.maxSignaturesPerCertificate) :
    Reads formats
      (step formats ⟨0, 0⟩ state (.committed (decidedBy validators) 7 false)).1.db 1
      ⟨signedBy validators, .minimal, some 7⟩ :=
  reads_iff.mpr ⟨_, Table.get_insert_self state.db.certificates 1 _,
    decode_of_encode (bounded_signedBy few _ _) rfl⟩

theorem reads_extended :
    Reads formats (run (step formats ⟨0, 0⟩) (undecided formats)
        [.finalized (signedBy [1, 2, 3, 4])]).db 1
      ⟨signedBy [1, 2, 3, 4], .extended, some 7⟩ := by
  have decided := reads_decidedBy formats ⟨∅, none⟩ (show [1, 2, 3].length ≤ _ by decide)
  obtain ⟨bytes, found, decoded⟩ := reads_iff.mp decided
  obtain ⟨db, extends_⟩ : ∃ db, extendCertificate formats (undecided formats).db
      (signedBy [1, 2, 3, 4]) = .ok db := by
    unfold extendCertificate
    rw [show (signedBy [1, 2, 3, 4]).height = 1 from rfl, undecided, found]
    dsimp only
    rw [decoded]
    exact ⟨_, rfl⟩
  have keeps : Keeps formats ⟨0, 0⟩ (undecided formats) (.finalized (signedBy [1, 2, 3, 4])) :=
    keeps_finalized (bounded_signedBy (by decide) _)
  obtain ⟨after, existing, stored, now⟩ := keeps.extended _ db rfl rfl extends_
  obtain rfl := decided.unique stored
  exact after ▸ now

end Second

/-- The protobuf format of certificates, and the SSZ encoding of a bare payload. -/
def rowFormats : RowFormats := ⟨Protobuf.wireFormat _, bareSszBytes⟩

/-- **A second decision drops signatures.** A fourth validator signs before the height is finalized
and its signature is stored; the height is restarted, three validators decide the same value again,
and the signature of the fourth is gone from the row. -/
theorem signatures_lost_by_second_decision :
    Reads rowFormats
        (run (step rowFormats ⟨0, 0⟩) (undecided rowFormats) [.finalized (signedBy [1, 2, 3, 4])]).db 1
        ⟨signedBy [1, 2, 3, 4], .extended, some 7⟩ ∧
      Reads rowFormats (run (step rowFormats ⟨0, 0⟩) (undecided rowFormats)
          [.finalized (signedBy [1, 2, 3, 4]), .committed (decidedBy [1, 2, 3]) 7 false]).db 1
        ⟨signedBy [1, 2, 3], .minimal, some 7⟩ ∧
      ¬ (signedBy [1, 2, 3, 4]).commitSignatures ⊆ (signedBy [1, 2, 3]).commitSignatures :=
  ⟨reads_extended rowFormats, reads_decidedBy rowFormats _ (by decide), by decide⟩

theorem certificates_only_gain_extended :
    Reads rowFormats (undecided rowFormats).db 1 ⟨signedBy [1, 2, 3], .minimal, some 7⟩ ∧
      Along (step rowFormats ⟨0, 0⟩) (Keeps rowFormats ⟨0, 0⟩) (undecided rowFormats)
        [.finalized (signedBy [1, 2, 3, 4])] ∧
      ∃ after, Reads rowFormats (run (step rowFormats ⟨0, 0⟩) (undecided rowFormats)
          [.finalized (signedBy [1, 2, 3, 4])]).db 1 after ∧
        Gains ⟨signedBy [1, 2, 3], .minimal, some 7⟩ after ∧ after.proposer = some 7 := by
  have decided := reads_decidedBy rowFormats ⟨∅, none⟩ (show [1, 2, 3].length ≤ _ by decide)
  obtain ⟨keeps, gains⟩ := certificates_only_gain rowFormats ⟨0, 0⟩ (undecided rowFormats)
    [.finalized (signedBy [1, 2, 3, 4])] ⟨fun _ => bounded_signedBy (by decide) _ _, trivial⟩
  have kept : ∀ front, front <+: [.finalized (signedBy [1, 2, 3, 4])] →
      (run (step rowFormats ⟨0, 0⟩) (undecided rowFormats) front).db.certificates.get 1 ≠ none := by
    intro front begins
    rcases List.prefix_cons_iff.mp begins with rfl | ⟨rest, rfl, ends⟩
    · decide +kernel
    · rw [List.prefix_nil.mp ends]
      decide +kernel
  obtain ⟨after, now, more, same⟩ := gains 1 _ decided kept
  exact ⟨decided, keeps, after, now, more, same (by simp [Repeats])⟩

end ArcNode.App.Growth
