/-
**Queries for one height and for a range of heights.**

Four tables are read by height: certificates, misbehavior evidence, invalid payloads and proposal
monitor data. A range query reads all its rows and the window of certificate heights from one
snapshot, and classifies every height (`readHeight`); what a missing row means depends on the table.
One description of what a height gives (`Gives`, `Window.outcome_iff`) carries the whole loop, and
the four range queries agree with the four single queries (**`range_queries_agree`**).
-/

import ArcNode.Codec.Stored
import ArcNode.Store.Db

namespace ArcNode.Store

open ArcNode.Lib ArcNode.Types ArcNode.Codec

inductive StoreError where
  | decode (error : Codec.DecodeError)
  | other (text : String)

/-- Why a height of a range could not be served. -/
inductive RangeFailureReason where
  | aboveCurrentHead
  | pruned
  | notRecorded
  | internal
  deriving DecidableEq

/-- The items, or the first reason why there are none. -/
inductive RangeQueryResult (T : Type) where
  | complete (items : List T)
  | unavailable (reason : RangeFailureReason) (failedHeights : List Height)

def StoredMisbehaviorEvidence.empty (height : Height) : StoredMisbehaviorEvidence := ⟨height, []⟩

def StoredInvalidPayloads.empty (height : Height) : StoredInvalidPayloads := ⟨height, []⟩

/-! ### One height -/

section Single

variable {PeerId : Type} (format : WireFormat Proto.StoreCommitCertificate) (formats : Formats PeerId)
  (db : Db Schema.raw)

/-- The row of a height, of the latest one for `none`. -/
def rowAt (table : Table Height (List Byte)) : Option Height → Option (List Byte)
  | some height => table.get height
  | none => table.last.map Prod.snd

/-- A row that has to decode. -/
def decodeRow {T : Type} (decode : List Byte → Except Codec.DecodeError T) :
    Option (List Byte) → Except StoreError (Option T)
  | some bytes => ((decode bytes).mapError StoreError.decode).map some
  | none => .ok none

/-- `get_certificate`: a row that does not decode is no certificate. -/
def getCertificate (height : Option Height) : Except StoreError (Option StoredCommitCertificate) :=
  .ok ((rowAt db.certificates height).bind fun bytes =>
    (StoreCodec.decodeCertificate format bytes).toOption)

def getProposalMonitorData (height : Option Height) : Except StoreError (Option ProposalMonitor) :=
  decodeRow (StoreCodec.decodeProposalMonitorData formats) (rowAt db.proposalMonitorData height)

/-- A query of a table in which a height without a record has an empty one: nothing above the
highest certificate, and `none` means that height. -/
def getOrEmpty {T : Type} (table : Table Height (List Byte))
    (decode : List Byte → Except Codec.DecodeError T) (empty : Height → T) (height : Option Height) :
    Except StoreError (Option T) :=
  match db.maxHeight with
  | none => .ok none
  | some max =>
    let effective := height.getD max
    if max < effective then .ok none
    else (decodeRow decode (table.get effective)).map fun found => some (found.getD (empty effective))

def getMisbehaviorEvidence : Option Height → Except StoreError (Option StoredMisbehaviorEvidence) :=
  getOrEmpty db db.misbehaviorEvidence (StoreCodec.decodeMisbehaviorEvidence formats)
    StoredMisbehaviorEvidence.empty

def getInvalidPayloads : Option Height → Except StoreError (Option StoredInvalidPayloads) :=
  getOrEmpty db db.invalidPayloads (StoreCodec.decodeInvalidPayloads formats)
    StoredInvalidPayloads.empty

theorem toOption_eq_some {ε T : Type} {outcome : Except ε T} {item : T} :
    outcome.toOption = some item ↔ outcome = .ok item := by
  cases outcome <;> simp [Except.toOption]

theorem decodeRow_eq_some {T : Type} {decode : List Byte → Except Codec.DecodeError T}
    {row : Option (List Byte)} {item : T} :
    decodeRow decode row = .ok (some item) ↔ ∃ bytes, row = some bytes ∧ decode bytes = .ok item := by
  cases row with
  | none => simp [decodeRow]
  | some bytes => cases decoded : decode bytes <;> simp [decodeRow, decoded, Except.mapError, Except.map]

end Single

/-! ### A range of heights -/

/-- What a range query is given of its table: the rows, their decoder, and what a missing row
means. -/
structure RangeTable (T : Type) where
  rows : Table Height (List Byte)
  decode : List Byte → Except Codec.DecodeError T
  onMissing : Height → Except RangeFailureReason T

/-- What a scan has found so far. -/
structure RangeScan (T : Type) where
  items : List T
  failures : List (Height × RangeFailureReason)

namespace RangeScan

variable {T : Type}

def pushItem (scan : RangeScan T) (item : T) : RangeScan T :=
  { scan with items := scan.items ++ [item] }

def pushFailure (scan : RangeScan T) (height : Height) (reason : RangeFailureReason) :
    RangeScan T :=
  { scan with failures := scan.failures ++ [(height, reason)] }

end RangeScan

section Range

variable {T : Type}

/-- The last height of a range; `none` for no heights and past the largest one. -/
def rangeEnd (start : Height) (count : ℕ) : Option ℕ :=
  if count = 0 then none
  else if start.val + (count - 1) < 2 ^ 64 then some (start.val + (count - 1)) else none

/-- One turn of the loop of `read_height_range`. -/
def readHeight (table : RangeTable T) (earliest head : Height) (scan : RangeScan T)
    (height : Height) : RangeScan T :=
  if height < earliest then scan.pushFailure height .pruned
  else if head < height then scan.pushFailure height .aboveCurrentHead
  else
    match table.rows.get height with
    | some bytes =>
      match table.decode bytes with
      | .ok item => scan.pushItem item
      | .error _ => scan.pushFailure height .internal
    | none =>
      match table.onMissing height with
      | .ok item => scan.pushItem item
      | .error reason => scan.pushFailure height reason

/-- The heights from one number up to and including another. -/
def heightsUpTo (first last : ℕ) : List Height :=
  (List.range' first (last + 1 - first)).map Height.new

/-- The failures with the first reason decide. -/
def RangeScan.result (scan : RangeScan T) : RangeQueryResult T :=
  match scan.failures.head? with
  | none => .complete scan.items
  | some (_, reason) =>
    .unavailable reason ((scan.failures.filter fun failure => failure.2 = reason).map Prod.fst)

/-- `read_height_range`; `none` is an empty store. -/
def readHeightRange (db : Db Schema.raw) (table : RangeTable T) (start : Height) (count : ℕ) :
    Except StoreError (Option (RangeQueryResult T)) :=
  match rangeEnd start count with
  | none => .error (.other ("invalid height range: from=" ++ toString start.val ++ ", count=" ++
      toString count))
  | some last =>
    match db.certificates.first, db.certificates.last with
    | some (earliest, _), some (head, _) =>
      .ok (some ((heightsUpTo start.val last).foldl (readHeight table earliest head) ⟨[], []⟩).result)
    | _, _ => .ok none

end Range

section Tables

variable {PeerId : Type} (formats : Formats PeerId) (db : Db Schema.raw)

def certificateTable : RangeTable StoredCommitCertificate where
  rows := db.certificates
  decode := StoreCodec.decodeCertificate formats.commitCertificate
  onMissing _ := .error .internal

def misbehaviorEvidenceTable : RangeTable StoredMisbehaviorEvidence where
  rows := db.misbehaviorEvidence
  decode := StoreCodec.decodeMisbehaviorEvidence formats
  onMissing height := .ok (StoredMisbehaviorEvidence.empty height)

def proposalMonitorTable : RangeTable ProposalMonitor where
  rows := db.proposalMonitorData
  decode := StoreCodec.decodeProposalMonitorData formats
  onMissing _ := .error .notRecorded

def invalidPayloadsTable : RangeTable StoredInvalidPayloads where
  rows := db.invalidPayloads
  decode := StoreCodec.decodeInvalidPayloads formats
  onMissing height := .ok (StoredInvalidPayloads.empty height)

def getCertificateRange := readHeightRange db (certificateTable formats db)

def getMisbehaviorEvidenceRange := readHeightRange db (misbehaviorEvidenceTable formats db)

def getProposalMonitorDataRange := readHeightRange db (proposalMonitorTable formats db)

def getInvalidPayloadsRange := readHeightRange db (invalidPayloadsTable formats db)

end Tables

/-! ### What a height of a range gives -/

section Spec

variable {T : Type} {db : Db Schema.raw} {table : RangeTable T}

/-- The heights from `start` on, `count` of them. -/
def InRange (start : Height) (count : ℕ) (height : Height) : Prop :=
  start ≤ height ∧ height.val < start.val + count

/-- A range that has a height and ends at or below the largest one. -/
def ValidRange (start : Height) (count : ℕ) : Prop := 0 < count ∧ start.val + count ≤ 2 ^ 64

/-- The height lies between the lowest and the highest certificate. -/
def InWindow (db : Db Schema.raw) (height : Height) : Prop :=
  (∃ low ∈ db.certificates.keys, low ≤ height) ∧ ∃ high ∈ db.certificates.keys, height ≤ high

/-- **What a height gives** in a table with its decoder and its rule for missing rows: an item that
is stored or made up, or the reason of a failure. -/
inductive Gives (db : Db Schema.raw) (table : RangeTable T) (height : Height) :
    Except RangeFailureReason T → Prop where
  | pruned (window : db.certificates.keys ≠ []) (below : ∀ other ∈ db.certificates.keys, height < other) :
      Gives db table height (.error .pruned)
  | above (window : db.certificates.keys ≠ []) (above : ∀ other ∈ db.certificates.keys, other < height) :
      Gives db table height (.error .aboveCurrentHead)
  | decoded {bytes : List Byte} {item : T} (inside : InWindow db height)
      (stored : table.rows.get height = some bytes) (decodes : table.decode bytes = .ok item) :
      Gives db table height (.ok item)
  | undecodable {bytes : List Byte} {error : Codec.DecodeError} (inside : InWindow db height)
      (stored : table.rows.get height = some bytes) (fails : table.decode bytes = .error error) :
      Gives db table height (.error .internal)
  | missing {outcome : Except RangeFailureReason T} (inside : InWindow db height)
      (absent : table.rows.get height = none) (means : table.onMissing height = outcome) :
      Gives db table height outcome

theorem Gives.inWindow {height : Height} {item : T} (gives : Gives db table height (.ok item)) :
    InWindow db height := by
  cases gives with
  | decoded inside | missing inside => exact inside

theorem gives_ok_iff {height : Height} {item : T} (inside : InWindow db height) :
    Gives db table height (.ok item) ↔
      (∃ bytes, table.rows.get height = some bytes ∧ table.decode bytes = .ok item) ∨
        table.rows.get height = none ∧ table.onMissing height = .ok item := by
  constructor
  · intro gives
    cases gives with
    | decoded _ stored decodes => exact .inl ⟨_, stored, decodes⟩
    | missing _ absent means => exact .inr ⟨absent, means⟩
  · rintro (⟨bytes, stored, decodes⟩ | ⟨absent, means⟩)
    · exact .decoded inside stored decodes
    · exact .missing inside absent means

/-- The height fails for this reason. -/
abbrev Fails (db : Db Schema.raw) (table : RangeTable T) (height : Height)
    (reason : RangeFailureReason) : Prop :=
  Gives db table height (.error reason)

/-- **A range query agrees with the queries for its heights.** -/
structure RangeAgrees (db : Db Schema.raw) (table : RangeTable T)
    (range : Height → ℕ → Except StoreError (Option (RangeQueryResult T)))
    (single : Height → Except StoreError (Option T)) (start : Height) (count : ℕ) : Prop where
  error : (∃ error, range start count = .error error) ↔ ¬ ValidRange start count
  none : range start count = .ok none ↔
    ValidRange start count ∧ ∀ height, db.certificates.get height = none
  complete : (∃ items, range start count = .ok (some (.complete items))) ↔ ValidRange start count ∧
      ∀ height, InRange start count height → ∃ item, Gives db table height (.ok item)
  reads : ∀ height item, InWindow db height →
    (single height = .ok (some item) ↔ Gives db table height (.ok item))
  items : ∀ items, range start count = .ok (some (.complete items)) → items.length = count ∧
      ∀ index < count, single (Height.new (start.val + index)) = .ok items[index]?
  unavailable : ∀ reason failed, range start count = .ok (some (.unavailable reason failed)) →
    (∃ lowest, InRange start count lowest ∧ Fails db table lowest reason ∧
      ∀ height, InRange start count height → height < lowest →
        ∀ other, ¬ Fails db table height other) ∧
    failed.Pairwise (· < ·) ∧
    ∀ height, height ∈ failed ↔ InRange start count height ∧ Fails db table height reason

/-- What `readHeight` files for a height. -/
def heightOutcome (table : RangeTable T) (earliest head height : Height) :
    Except RangeFailureReason T :=
  if height < earliest then .error .pruned
  else if head < height then .error .aboveCurrentHead
  else
    match table.rows.get height with
    | some bytes => (table.decode bytes).mapError fun _ => .internal
    | none => table.onMissing height

/-- An outcome filed in the accumulators. -/
def RangeScan.file (scan : RangeScan T) (height : Height) :
    Except RangeFailureReason T → RangeScan T
  | .ok item => scan.pushItem item
  | .error reason => scan.pushFailure height reason

theorem readHeight_eq (table : RangeTable T) (earliest head : Height) (scan : RangeScan T)
    (height : Height) :
    readHeight table earliest head scan height =
      scan.file height (heightOutcome table earliest head height) := by
  unfold readHeight heightOutcome
  split_ifs with below above
  · rfl
  · rfl
  · cases table.rows.get height with
    | none => cases table.onMissing height <;> rfl
    | some bytes =>
      dsimp only
      cases table.decode bytes <;> rfl

/-- The failure an outcome is, with its height. -/
def failureAt (outcome : Height → Except RangeFailureReason T) (height : Height) :
    Option (Height × RangeFailureReason) :=
  match outcome height with
  | .ok _ => none
  | .error reason => some (height, reason)

/-- **The loop collects the items and the failures of its heights, in order.** -/
theorem foldl_file (outcome : Height → Except RangeFailureReason T) (heights : List Height)
    (scan : RangeScan T) :
    heights.foldl (fun scan height => scan.file height (outcome height)) scan =
      ⟨scan.items ++ heights.filterMap fun height => (outcome height).toOption,
        scan.failures ++ heights.filterMap (failureAt outcome)⟩ := by
  induction heights generalizing scan with
  | nil => simp
  | cons height rest ih =>
    rw [List.foldl_cons, ih]
    cases found : outcome height with
    | ok item =>
      simp [RangeScan.file, RangeScan.pushItem, failureAt, found, Except.toOption]
    | error reason =>
      simp [RangeScan.file, RangeScan.pushFailure, failureAt, found, Except.toOption]

/-! ### The heights of a range -/

variable {start : Height} {count : ℕ}

theorem rangeEnd_of_validRange (valid : ValidRange start count) :
    rangeEnd start count = some (start.val + (count - 1)) := by
  obtain ⟨positive, bounded⟩ := valid
  rw [rangeEnd, if_neg (by omega), if_pos (by omega)]

theorem rangeEnd_of_not_validRange (invalid : ¬ ValidRange start count) :
    rangeEnd start count = none := by
  unfold rangeEnd
  split_ifs with empty fits
  · rfl
  · exact absurd ⟨by omega, by omega⟩ invalid
  · rfl

theorem val_new_of_lt {n : ℕ} (small : n < 2 ^ 64) : (Height.new n).val = n :=
  Nat.mod_eq_of_lt small

def rangeHeights (start : Height) (count : ℕ) : List Height :=
  (List.range' start.val count).map Height.new

theorem heightsUpTo_eq (valid : ValidRange start count) :
    heightsUpTo start.val (start.val + (count - 1)) = rangeHeights start count := by
  have length : start.val + (count - 1) + 1 - start.val = count := by
    have := valid.1
    omega
  rw [heightsUpTo, length, rangeHeights]

theorem mem_rangeHeights (valid : ValidRange start count) {height : Height} :
    height ∈ rangeHeights start count ↔ InRange start count height := by
  rw [rangeHeights, List.mem_map, InRange, Height.le_def]
  constructor
  · rintro ⟨n, member, rfl⟩
    rw [List.mem_range'_1] at member
    have := valid.2
    rw [val_new_of_lt (by omega)]
    exact member
  · rintro ⟨low, high⟩
    exact ⟨height.val, List.mem_range'_1.mpr ⟨low, high⟩, Height.ext (val_new_of_lt height.isLt)⟩

theorem pairwise_rangeHeights (valid : ValidRange start count) :
    (rangeHeights start count).Pairwise (· < ·) := by
  rw [rangeHeights, List.pairwise_map]
  refine List.Pairwise.imp_of_mem ?_ (List.pairwise_lt_range' 1)
  intro low high lowIn highIn less
  rw [List.mem_range'_1] at lowIn highIn
  have := valid.2
  rw [Height.lt_def, val_new_of_lt (by omega), val_new_of_lt (by omega)]
  exact less

/-! ### The window -/

/-- A store with certificates has a window. -/
structure Window (db : Db Schema.raw) (earliest head : Height) : Prop where
  first : earliest ∈ db.certificates.keys
  last : head ∈ db.certificates.keys
  least : ∀ other ∈ db.certificates.keys, earliest ≤ other
  greatest : ∀ other ∈ db.certificates.keys, other ≤ head

variable {earliest head height : Height}

theorem window_of_ends {lowest highest : Height × List Byte}
    (first : db.certificates.first = some lowest) (last : db.certificates.last = some highest) :
    Window db lowest.1 highest.1 where
  first := List.mem_map_of_mem (Table.first_eq_some first).1
  last := List.mem_map_of_mem (Table.last_eq_some.mp last).1
  least := List.forall_mem_map.mpr (Table.first_eq_some first).2
  greatest := List.forall_mem_map.mpr (Table.last_eq_some.mp last).2

theorem Window.inWindow_iff (window : Window db earliest head) :
    InWindow db height ↔ earliest ≤ height ∧ height ≤ head := by
  constructor
  · rintro ⟨⟨low, stored, below⟩, high, kept, above⟩
    exact ⟨(window.least low stored).trans below, above.trans (window.greatest high kept)⟩
  · rintro ⟨below, above⟩
    exact ⟨⟨earliest, window.first, below⟩, head, window.last, above⟩

/-- **The outcome that the loop files is what the height gives.** -/
theorem Window.outcome_iff (window : Window db earliest head)
    {outcome : Except RangeFailureReason T} :
    heightOutcome table earliest head height = outcome ↔ Gives db table height outcome := by
  constructor
  · rintro rfl
    unfold heightOutcome
    split_ifs with below above
    · exact .pruned (List.ne_nil_of_mem window.first) fun other stored =>
        below.trans_le (window.least other stored)
    · exact .above (List.ne_nil_of_mem window.last) fun other stored =>
        (window.greatest other stored).trans_lt above
    · have inside := window.inWindow_iff.mpr ⟨not_lt.mp below, not_lt.mp above⟩
      cases stored : table.rows.get height with
      | none => exact .missing inside stored rfl
      | some bytes =>
        dsimp only
        cases decoded : table.decode bytes with
        | ok item => exact .decoded inside stored decoded
        | error error => exact .undecodable inside stored decoded
  · intro gives
    unfold heightOutcome
    cases gives with
    | pruned _ below => rw [if_pos (below earliest window.first)]
    | above _ above =>
      rw [if_neg (not_lt.mpr (above earliest window.first).le), if_pos (above head window.last)]
    | decoded inside stored decodes | undecodable inside stored decodes =>
      obtain ⟨low, high⟩ := window.inWindow_iff.mp inside
      rw [if_neg (not_lt.mpr low), if_neg (not_lt.mpr high), stored]
      dsimp only
      rw [decodes]
      rfl
    | missing inside absent means =>
      obtain ⟨low, high⟩ := window.inWindow_iff.mp inside
      rw [if_neg (not_lt.mpr low), if_neg (not_lt.mpr high), absent]
      exact means

/-! ### The result -/

section Result

variable {outcome : Height → Except RangeFailureReason T} {heights : List Height}

theorem filterMap_toOption (served : ∀ height ∈ heights, ∃ item, outcome height = .ok item) :
    (heights.filterMap fun height => (outcome height).toOption).map some =
      heights.map fun height => (outcome height).toOption := by
  induction heights with
  | nil => rfl
  | cons height rest ih =>
    obtain ⟨item, found⟩ := served height List.mem_cons_self
    have tail := ih fun other member => served other (List.mem_cons_of_mem _ member)
    simp [found, Except.toOption] at tail ⊢
    exact tail

theorem failures_eq_nil_iff : heights.filterMap (failureAt outcome) = [] ↔
      ∀ height ∈ heights, ∃ item, outcome height = .ok item := by
  rw [List.filterMap_eq_nil_iff]
  refine forall₂_congr fun height _ => ?_
  unfold failureAt
  cases outcome height with
  | ok item | error reason => simp

theorem failureAt_eq_some {failure : Height × RangeFailureReason} :
    failureAt outcome height = some failure ↔
      failure.1 = height ∧ outcome height = .error failure.2 := by
  obtain ⟨place, reason⟩ := failure
  unfold failureAt
  cases outcome height with
  | ok item => simp
  | error other => simp [eq_comm]

variable {reason : RangeFailureReason}

theorem lowest_failure {place : Height}
    {rest : List (Height × RangeFailureReason)}
    (failures : heights.filterMap (failureAt outcome) = (place, reason) :: rest)
    (sorted : heights.Pairwise (· < ·)) :
    place ∈ heights ∧ outcome place = .error reason ∧
      ∀ height ∈ heights, height < place → ∃ item, outcome height = .ok item := by
  obtain ⟨front, found, back, rfl, nothing, first, -⟩ :=
    List.filterMap_eq_cons_iff.mp failures
  obtain ⟨rfl, fails⟩ := failureAt_eq_some.mp first
  refine ⟨by simp, fails, ?_⟩
  intro height member less
  rcases List.mem_append.mp member with before | after
  · exact failures_eq_nil_iff.mp (List.filterMap_eq_nil_iff.mpr nothing) height before
  · -- From the failing height on, no height is below it.
    have above := (List.pairwise_append.mp sorted).2.1
    rcases List.mem_cons.mp after with rfl | later
    · exact absurd less (lt_irrefl _)
    · exact absurd less (not_lt.mpr ((List.pairwise_cons.mp above).1 height later).le)

theorem mem_failed : height ∈ ((heights.filterMap (failureAt outcome)).filter
        fun failure => failure.2 = reason).map Prod.fst ↔
      height ∈ heights ∧ outcome height = .error reason := by
  simp only [List.mem_map, List.mem_filter, List.mem_filterMap, failureAt_eq_some,
    decide_eq_true_eq]
  constructor
  · rintro ⟨⟨place, cause⟩, ⟨⟨other, member, same, fails⟩, rfl⟩, rfl⟩
    cases same
    exact ⟨member, fails⟩
  · rintro ⟨member, fails⟩
    exact ⟨(height, reason), ⟨⟨height, member, rfl, fails⟩, rfl⟩, rfl⟩

theorem pairwise_failed (sorted : heights.Pairwise (· < ·)) :
    (((heights.filterMap (failureAt outcome)).filter
      fun failure => failure.2 = reason).map Prod.fst).Pairwise (· < ·) := by
  rw [List.pairwise_map]
  refine List.Pairwise.filter _ ((List.pairwise_filterMap).mpr (sorted.imp ?_))
  intro low high less first wasLow second wasHigh
  rw [(failureAt_eq_some.mp wasLow).1, (failureAt_eq_some.mp wasHigh).1]
  exact less

end Result

/-! ### Agreement -/

theorem ends_cases (db : Db Schema.raw) : (db.maxHeight = none ∧ db.certificates.last = none) ∨
      ∃ lowest highest, db.certificates.first = some lowest ∧
        db.certificates.last = some highest := by
  cases last : db.certificates.last with
  | none => exact Or.inl ⟨by rw [Db.maxHeight, last, Option.map_none], rfl⟩
  | some highest =>
    have nonempty := List.ne_nil_of_mem (Table.last_eq_some.mp last).1
    exact Or.inr ⟨_, highest, List.head?_eq_some_head nonempty, rfl⟩

theorem readHeightRange_of_window {lowest highest : Height × List Byte}
    (valid : ValidRange start count) (first : db.certificates.first = some lowest)
    (last : db.certificates.last = some highest) :
    readHeightRange db table start count = .ok (some (RangeScan.result
      ⟨(rangeHeights start count).filterMap fun height =>
          (heightOutcome table lowest.1 highest.1 height).toOption,
        (rangeHeights start count).filterMap
          (failureAt (heightOutcome table lowest.1 highest.1))⟩)) := by
  have loop : readHeight table lowest.1 highest.1 = fun scan height =>
      scan.file height (heightOutcome table lowest.1 highest.1 height) :=
    funext fun scan => funext fun height => readHeight_eq table _ _ scan height
  rw [readHeightRange, rangeEnd_of_validRange valid, first, last]
  dsimp only
  rw [heightsUpTo_eq valid, loop, foldl_file]
  rfl

/-- On a store with certificates and for a valid range, the outcomes of the heights decide. -/
theorem rangeAgrees_of_window {single : Height → Except StoreError (Option T)}
    {lowest highest : Height × List Byte}
    (serves : ∀ height item, InWindow db height →
      (single height = .ok (some item) ↔ Gives db table height (.ok item)))
    (valid : ValidRange start count) (first : db.certificates.first = some lowest)
    (last : db.certificates.last = some highest) :
    RangeAgrees db table (readHeightRange db table) single start count := by
  have window := window_of_ends first last
  have reads : readHeightRange db table start count = _ :=
    readHeightRange_of_window valid first last
  have sorted := pairwise_rangeHeights valid
  have served : (∀ height ∈ rangeHeights start count, ∃ item,
      heightOutcome table lowest.1 highest.1 height = .ok item) ↔
      ∀ height, InRange start count height → ∃ item, Gives db table height (.ok item) := by
    simp only [mem_rangeHeights valid, window.outcome_iff]
  have stored : ¬ ∀ height, db.certificates.get height = none := fun empty => by
    cases (empty highest.1).symm.trans (Table.get_eq_some.mpr (Table.last_eq_some.mp last).1)
  rw [RangeScan.result] at reads
  cases failures : (rangeHeights start count).filterMap
      (failureAt (heightOutcome table lowest.1 highest.1)) with
  | nil =>
    have all := failures_eq_nil_iff.mp failures
    rw [failures] at reads
    dsimp only [List.head?_nil] at reads
    refine ⟨by simp [reads, valid], by simp [reads, stored],
      ⟨fun _ => ⟨valid, served.mp all⟩, fun _ => ⟨_, reads⟩⟩, serves, ?_, by simp [reads]⟩
    intro items complete
    obtain rfl : _ = items := by simpa [reads] using complete
    have listed := filterMap_toOption all
    have length := congrArg List.length listed
    rw [List.length_map, List.length_map, rangeHeights, List.length_map,
      List.length_range'] at length
    refine ⟨length, fun index small => ?_⟩
    obtain ⟨item, found⟩ := all (Height.new (start.val + index))
      (List.mem_map.mpr ⟨_, List.mem_range'_1.mpr ⟨by omega, by omega⟩, rfl⟩)
    have gives := window.outcome_iff.mp found
    rw [(serves _ item gives.inWindow).mpr gives]
    have entry := congrArg (fun list => list[index]?) listed
    simp only [List.getElem?_map, rangeHeights, List.getElem?_range' small, Option.map_some,
      one_mul, found] at entry
    obtain ⟨other, place, same⟩ := Option.map_eq_some_iff.mp entry
    rw [rangeHeights, place]
    exact congrArg _ same.symm
  | cons failure rest =>
    obtain ⟨lowestFailure, reason⟩ := failure
    obtain ⟨member, fails, lower⟩ := lowest_failure failures sorted
    have notAll : ¬ ∀ height, InRange start count height →
        ∃ item, Gives db table height (.ok item) := fun all => by
      rw [failures_eq_nil_iff.mpr (served.mpr all)] at failures
      cases failures
    rw [failures] at reads
    dsimp only [List.head?_cons] at reads
    rw [← failures] at reads
    refine ⟨by simp [reads, valid], by simp [reads, stored], by simp [reads, notAll], serves,
      by simp [reads], ?_⟩
    intro reason' failed unavailable
    rw [reads, Except.ok.injEq, Option.some.injEq, RangeQueryResult.unavailable.injEq] at unavailable
    obtain ⟨rfl, rfl⟩ := unavailable
    refine ⟨⟨lowestFailure, (mem_rangeHeights valid).mp member, window.outcome_iff.mp fails, ?_⟩,
      pairwise_failed sorted, ?_⟩
    · intro height inRange less other failing
      obtain ⟨item, found⟩ := lower height ((mem_rangeHeights valid).mpr inRange) less
      rw [window.outcome_iff.mpr failing] at found
      cases found
    · intro height
      rw [mem_failed, mem_rangeHeights valid, window.outcome_iff]

/-- **A range query agrees with a single query** that gives what a height gives. -/
theorem rangeAgrees {single : Height → Except StoreError (Option T)}
    (serves : ∀ height item, InWindow db height →
      (single height = .ok (some item) ↔ Gives db table height (.ok item)))
    (start : Height) (count : ℕ) :
    RangeAgrees db table (readHeightRange db table) single start count := by
  by_cases valid : ValidRange start count
  · rcases ends_cases db with ⟨nothing, last⟩ | ⟨lowest, highest, first, last⟩
    · have reads : readHeightRange db table start count = .ok none := by
        rw [readHeightRange, rangeEnd_of_validRange valid, last]
        dsimp only
        cases db.certificates.first <;> rfl
      have none : ∀ height, db.certificates.get height = none := Db.maxHeight_eq_none.mp nothing
      refine ⟨by simp [reads, valid], by simp [reads, valid, none], ?_, serves, by simp [reads],
        by simp [reads]⟩
      simp only [reads, reduceCtorEq, Except.ok.injEq, exists_false, false_iff]
      rintro ⟨_, inside⟩
      obtain ⟨item, gives⟩ := inside start ⟨le_rfl, Nat.lt_add_of_pos_right valid.1⟩
      obtain ⟨low, stored, -⟩ := gives.inWindow.1
      rw [Table.mem_keys, none low] at stored
      cases stored
    · exact rangeAgrees_of_window serves valid first last
  · have reads : ∃ error, readHeightRange db table start count = .error error := by
      rw [readHeightRange, rangeEnd_of_not_validRange valid]
      exact ⟨_, rfl⟩
    obtain ⟨error, reads⟩ := reads
    exact ⟨by simp [reads, valid], by simp [reads, valid], by simp [reads, valid], serves,
      by simp [reads], by simp [reads]⟩

end Spec

/-! ### The four tables -/

section Tables

variable {PeerId : Type} (formats : Formats PeerId) (db : Db Schema.raw)

theorem getCertificate_iff (height : Height) (item : StoredCommitCertificate)
    (inside : InWindow db height) :
    getCertificate formats.commitCertificate db (some height) = .ok (some item) ↔
      Gives db (certificateTable formats db) height (.ok item) := by
  rw [gives_ok_iff inside, getCertificate, Except.ok.injEq, Option.bind_eq_some_iff]
  constructor
  · rintro ⟨bytes, stored, decodes⟩
    exact .inl ⟨bytes, stored, toOption_eq_some.mp decodes⟩
  · rintro (⟨bytes, stored, decodes⟩ | ⟨-, means⟩)
    · exact ⟨bytes, stored, toOption_eq_some.mpr decodes⟩
    · cases means

theorem getProposalMonitorData_iff (height : Height) (item : ProposalMonitor)
    (inside : InWindow db height) :
    getProposalMonitorData formats db (some height) = .ok (some item) ↔
      Gives db (proposalMonitorTable formats db) height (.ok item) := by
  rw [gives_ok_iff inside]
  refine decodeRow_eq_some.trans ⟨.inl, ?_⟩
  rintro (found | ⟨-, means⟩)
  · exact found
  · cases means

/-- Inside the window, the query of a table with empty records gives what its height gives. -/
theorem getOrEmpty_iff {T : Type} {table : RangeTable T} {empty : Height → T}
    (makes : table.onMissing = fun height => .ok (empty height)) (height : Height) (item : T)
    (inside : InWindow db height) :
    getOrEmpty db table.rows table.decode empty (some height) = .ok (some item) ↔
      Gives db table height (.ok item) := by
  have reads : getOrEmpty db table.rows table.decode empty (some height) =
      (decodeRow table.decode (table.rows.get height)).map fun found =>
        some (found.getD (empty height)) := by
    obtain ⟨-, high, stored, below⟩ := inside
    cases last : db.maxHeight with
    | none =>
      rw [Table.mem_keys, Db.maxHeight_eq_none.mp last high] at stored
      cases stored
    | some head =>
      rw [getOrEmpty, last]
      dsimp only [Option.getD_some]
      rw [if_neg (not_lt.mpr (below.trans ((Db.maxHeight_eq_some.mp last).2 high stored)))]
  rw [gives_ok_iff inside, reads, makes]
  cases table.rows.get height with
  | none => simp [decodeRow, Except.map]
  | some bytes =>
    cases decoded : table.decode bytes <;> simp [decodeRow, decoded, Except.mapError, Except.map]

/-- **Range queries agree with single-height queries**: for every content of the store, every start
and every count, on one snapshot. Each table is given by its rows, their decoder and what a missing
row means. -/
theorem range_queries_agree (start : Height) (count : ℕ) : RangeAgrees db
        { rows := db.certificates
          decode := StoreCodec.decodeCertificate formats.commitCertificate
          onMissing := fun _ => .error .internal }
        (getCertificateRange formats db)
        (fun height => getCertificate formats.commitCertificate db (some height)) start count ∧
      RangeAgrees db
        { rows := db.misbehaviorEvidence
          decode := StoreCodec.decodeMisbehaviorEvidence formats
          onMissing := fun height => .ok ⟨height, []⟩ }
        (getMisbehaviorEvidenceRange formats db)
        (fun height => getMisbehaviorEvidence formats db (some height)) start count ∧
      RangeAgrees db
        { rows := db.invalidPayloads
          decode := StoreCodec.decodeInvalidPayloads formats
          onMissing := fun height => .ok ⟨height, []⟩ }
        (getInvalidPayloadsRange formats db)
        (fun height => getInvalidPayloads formats db (some height)) start count ∧
      RangeAgrees db
        { rows := db.proposalMonitorData
          decode := StoreCodec.decodeProposalMonitorData formats
          onMissing := fun _ => .error .notRecorded }
        (getProposalMonitorDataRange formats db)
        (fun height => getProposalMonitorData formats db (some height)) start count :=
  ⟨rangeAgrees (getCertificate_iff formats db) start count,
    rangeAgrees (getOrEmpty_iff db rfl) start count,
    rangeAgrees (getOrEmpty_iff db rfl) start count,
    rangeAgrees (getProposalMonitorData_iff formats db) start count⟩

end Tables

end ArcNode.Store
