/-
**Rollback of the database to a height.**

`rollbackToHeight` walks half-open windows of heights downward from the certificate tip. The step
lemma is one window (`rollbackBatch`), the run lemma is the loop (**`rollbackLoop_eq`**: the windows
together drop and count exactly `[stop, high)`), and `rollbackToHeight_cases` reads off the whole
function. What the other tables hold above the certificate tip is neither removed nor counted.
-/

import ArcNode.Store.Db

namespace ArcNode.Store

open ArcNode.Lib ArcNode.Types

variable {S : Schema}

/-- Deletion counts of a rollback, per table. -/
@[ext] structure RollbackReport where
  certificates : ℕ := 0
  decidedBlocks : ℕ := 0
  invalidPayloads : ℕ := 0
  misbehaviorEvidence : ℕ := 0
  proposalMonitorData : ℕ := 0
  undecidedBlocks : ℕ := 0
  pendingProposalParts : ℕ := 0
  deriving DecidableEq

/-- Counts of two passes together. -/
def RollbackReport.add (first second : RollbackReport) : RollbackReport where
  certificates := first.certificates + second.certificates
  decidedBlocks := first.decidedBlocks + second.decidedBlocks
  invalidPayloads := first.invalidPayloads + second.invalidPayloads
  misbehaviorEvidence := first.misbehaviorEvidence + second.misbehaviorEvidence
  proposalMonitorData := first.proposalMonitorData + second.proposalMonitorData
  undecidedBlocks := first.undecidedBlocks + second.undecidedBlocks
  pendingProposalParts := first.pendingProposalParts + second.pendingProposalParts

instance : Add RollbackReport := ⟨RollbackReport.add⟩

theorem RollbackReport.add_assoc (first second third : RollbackReport) :
    first + second + third = first + (second + third) :=
  RollbackReport.ext (Nat.add_assoc ..) (Nat.add_assoc ..) (Nat.add_assoc ..) (Nat.add_assoc ..)
    (Nat.add_assoc ..) (Nat.add_assoc ..) (Nat.add_assoc ..)

theorem RollbackReport.add_zero (report : RollbackReport) : report + {} = report := rfl

theorem RollbackReport.zero_add (report : RollbackReport) : {} + report = report :=
  RollbackReport.ext (Nat.zero_add _) (Nat.zero_add _) (Nat.zero_add _) (Nat.zero_add _)
    (Nat.zero_add _) (Nat.zero_add _) (Nat.zero_add _)

/-! ### The function -/

variable (db : Db S)

/-- The body of one write transaction: `retain_in` on all seven tables, the closures answering
`keep`. -/
def retainWindow (low high : Height) (keep : Bool) : Db S where
  certificates := db.certificates.retainIn low high fun _ _ => keep
  decidedBlocks := db.decidedBlocks.retainIn low high fun _ _ => keep
  invalidPayloads := db.invalidPayloads.retainIn low high fun _ _ => keep
  misbehaviorEvidence := db.misbehaviorEvidence.retainIn low high fun _ _ => keep
  proposalMonitorData := db.proposalMonitorData.retainIn low high fun _ _ => keep
  undecidedBlocks :=
    db.undecidedBlocks.retainIn (BlockKey.least low) (BlockKey.least high) fun _ _ => keep
  pendingProposalParts :=
    db.pendingProposalParts.retainIn (BlockKey.least low) (BlockKey.least high) fun _ _ => keep

/-- What the closures of one transaction count. -/
def countWindow (low high : Height) : RollbackReport where
  certificates := db.certificates.countIn low high
  decidedBlocks := db.decidedBlocks.countIn low high
  invalidPayloads := db.invalidPayloads.countIn low high
  misbehaviorEvidence := db.misbehaviorEvidence.countIn low high
  proposalMonitorData := db.proposalMonitorData.countIn low high
  undecidedBlocks := db.undecidedBlocks.countIn (BlockKey.least low) (BlockKey.least high)
  pendingProposalParts :=
    db.pendingProposalParts.countIn (BlockKey.least low) (BlockKey.least high)

/-- One batch: the transaction is aborted in a dry run and committed otherwise. -/
def rollbackBatch (low high : Height) (dryRun : Bool) : Db S × RollbackReport :=
  let written := retainWindow db low high dryRun
  (if dryRun then db else written, countWindow db low high)

/-- The loop of `rollback_to_height`, from `high` down to `stop`; `none` when the fuel runs out. -/
def rollbackLoop (stop : Height) (batchSize : ℕ) (dryRun : Bool) :
    ℕ → Height → Db S → RollbackReport → Option (Db S × RollbackReport)
  | fuel, high, db, report =>
    if high = stop then some (db, report)
    else
      match fuel with
      | 0 => none
      | fuel + 1 =>
        let low := max (high.saturatingSub batchSize) stop
        let (written, counted) := rollbackBatch db low high dryRun
        rollbackLoop stop batchSize dryRun fuel low written (report + counted)

variable (target : Height)

/-- `rollback_to_height`; `none` is a panic (a zero batch size, or a height that overflows). -/
def rollbackToHeight (batchSize : ℕ) (dryRun : Bool) : Option (Db S × RollbackReport) :=
  if 0 < batchSize then
    match db.maxHeight with
    | none => some (db, {})
    | some current =>
      if current ≤ target then some (db, {})
      else do
        let stop ← target.increment
        let high ← current.increment
        rollbackLoop stop batchSize dryRun high.val high db {}
  else none

/-! ### One window -/

def dropWindow (low high : Height) : Db S := retainWindow db low high false

theorem rollbackBatch_eq (low high : Height) (dryRun : Bool) : rollbackBatch db low high dryRun =
      (if dryRun then db else dropWindow db low high, countWindow db low high) := by
  cases dryRun <;> rfl

theorem least_mono {low high : Height} (below : low ≤ high) :
    BlockKey.least low ≤ BlockKey.least high :=
  BlockKey.least_le_iff.mpr below

theorem dropWindow_dropWindow {low middle high : Height} (below : low ≤ middle)
    (above : middle ≤ high) :
    dropWindow (dropWindow db middle high) low middle = dropWindow db low high :=
  Db.ext (Table.dropIn_dropIn _ below above) (Table.dropIn_dropIn _ below above)
    (Table.dropIn_dropIn _ below above) (Table.dropIn_dropIn _ below above)
    (Table.dropIn_dropIn _ below above)
    (Table.dropIn_dropIn _ (least_mono below) (least_mono above))
    (Table.dropIn_dropIn _ (least_mono below) (least_mono above))

variable (height : Height)

theorem dropWindow_self : dropWindow db height height = db :=
  Db.ext (Table.dropIn_self ..) (Table.dropIn_self ..) (Table.dropIn_self ..)
    (Table.dropIn_self ..) (Table.dropIn_self ..) (Table.dropIn_self ..) (Table.dropIn_self ..)

theorem countWindow_self : countWindow db height height = {} :=
  RollbackReport.ext (Table.countIn_self ..) (Table.countIn_self ..) (Table.countIn_self ..)
    (Table.countIn_self ..) (Table.countIn_self ..) (Table.countIn_self ..)
    (Table.countIn_self ..)

theorem countWindow_add {low middle high : Height} (below : low ≤ middle) (above : middle ≤ high) :
    countWindow db middle high + countWindow db low middle = countWindow db low high :=
  RollbackReport.ext (Table.countIn_add _ below above) (Table.countIn_add _ below above)
    (Table.countIn_add _ below above) (Table.countIn_add _ below above)
    (Table.countIn_add _ below above)
    (Table.countIn_add _ (least_mono below) (least_mono above))
    (Table.countIn_add _ (least_mono below) (least_mono above))

theorem countWindow_dropWindow (low middle high : Height) :
    countWindow (dropWindow db middle high) low middle = countWindow db low middle :=
  RollbackReport.ext (Table.countIn_dropIn ..) (Table.countIn_dropIn ..)
    (Table.countIn_dropIn ..) (Table.countIn_dropIn ..) (Table.countIn_dropIn ..)
    (Table.countIn_dropIn ..) (Table.countIn_dropIn ..)

/-! ### The loop -/

/-- What windows that together cover `[low, high)` leave behind. -/
def afterWindows (low high : Height) (dryRun : Bool) : Db S :=
  if dryRun then db else dropWindow db low high

/-- The lower edge of the window below `high`. -/
def windowLow (stop : Height) (batchSize : ℕ) (high : Height) : Height :=
  max (high.saturatingSub batchSize) stop

theorem afterWindows_self (dryRun : Bool) : afterWindows db height height dryRun = db := by
  rw [afterWindows, dropWindow_self, ite_self]

theorem afterWindows_afterWindows {low middle high : Height} (below : low ≤ middle)
    (above : middle ≤ high) (dryRun : Bool) :
    afterWindows (afterWindows db middle high dryRun) low middle dryRun =
      afterWindows db low high dryRun := by
  cases dryRun with
  | true => rfl
  | false => exact dropWindow_dropWindow db below above

theorem countWindow_afterWindows (low middle high : Height) (dryRun : Bool) :
    countWindow (afterWindows db middle high dryRun) low middle = countWindow db low middle := by
  cases dryRun with
  | true => rfl
  | false => exact countWindow_dropWindow db low middle high

theorem rollbackLoop_stop (stop : Height) (batchSize : ℕ) (dryRun : Bool) (fuel : ℕ) (db : Db S)
    (report : RollbackReport) :
    rollbackLoop stop batchSize dryRun fuel stop db report = some (db, report) := by
  cases fuel <;> rw [rollbackLoop, if_pos rfl]

theorem rollbackLoop_succ {stop high : Height} (other : high ≠ stop) (batchSize : ℕ)
    (dryRun : Bool) (fuel : ℕ) (db : Db S) (report : RollbackReport) :
    rollbackLoop stop batchSize dryRun (fuel + 1) high db report =
      rollbackLoop stop batchSize dryRun fuel (windowLow stop batchSize high)
        (afterWindows db (windowLow stop batchSize high) high dryRun)
        (report + countWindow db (windowLow stop batchSize high) high) := by
  rw [rollbackLoop, if_neg other]
  show rollbackLoop stop batchSize dryRun fuel (windowLow stop batchSize high)
    (rollbackBatch db (windowLow stop batchSize high) high dryRun).1
    (report + (rollbackBatch db (windowLow stop batchSize high) high dryRun).2) = _
  rw [rollbackBatch_eq]
  rfl

variable {batchSize : ℕ}

/-- A window is not empty and stays above `stop`. -/
theorem windowLow_bounds {stop high : Height} (positive : 0 < batchSize)
    (above : stop < high) :
    stop ≤ windowLow stop batchSize high ∧ windowLow stop batchSize high < high := by
  refine ⟨le_max_right _ _, max_lt ?_ above⟩
  rw [Height.lt_def] at above ⊢
  rw [Height.saturatingSub_val]
  omega

/-- **The loop ends, and its windows are one window.** Every turn lowers `high` by at least one and
never below `stop`, so the distance between them is enough fuel. -/
theorem rollbackLoop_eq {stop : Height} (positive : 0 < batchSize) (dryRun : Bool)
    (fuel : ℕ) (high : Height) (db : Db S) (report : RollbackReport) (above : stop ≤ high)
    (enough : high.val ≤ stop.val + fuel) :
    rollbackLoop stop batchSize dryRun fuel high db report =
      some (afterWindows db stop high dryRun, report + countWindow db stop high) := by
  induction fuel generalizing high db report with
  | zero =>
    have same : high = stop := le_antisymm (Height.le_def.mpr (by omega)) above
    rw [same, rollbackLoop_stop, countWindow_self, RollbackReport.add_zero, afterWindows_self]
  | succ fuel ih =>
    by_cases same : high = stop
    · rw [same, rollbackLoop_stop, countWindow_self, RollbackReport.add_zero, afterWindows_self]
    · obtain ⟨lower, upper⟩ :=
        windowLow_bounds positive (lt_of_le_of_ne above (Ne.symm same))
      have closer : (windowLow stop batchSize high).val ≤ stop.val + fuel := by
        have := Height.lt_def.mp upper
        omega
      rw [rollbackLoop_succ same, ih _ _ _ lower closer,
        afterWindows_afterWindows db lower upper.le, countWindow_afterWindows,
        RollbackReport.add_assoc, countWindow_add db lower upper.le]

/-! ### The whole function -/

/-- The tip is above the target, with the two ends `[stop, high)` of the heights in between. -/
structure TipAbove (db : Db S) (target stop high : Height) : Prop where
  tip : ∃ current, db.maxHeight = some current ∧ high.val = current.val + 1
  stop_val : stop.val = target.val + 1
  nonempty : stop.val < high.val

/-- The certificate tip is not above the target, or there is no certificate at all. -/
def TipWithin : Prop :=
  ∀ current, db.maxHeight = some current → current ≤ target

theorem rollbackToHeight_of_tipWithin {db : Db S} {target : Height} (within : TipWithin db target)
    (positive : 0 < batchSize) (dryRun : Bool) :
    rollbackToHeight db target batchSize dryRun = some (db, {}) := by
  unfold rollbackToHeight
  rw [if_pos positive]
  cases found : db.maxHeight with
  | none => rfl
  | some current => exact if_pos (within current found)

theorem rollbackToHeight_of_tipAbove {db : Db S} {target stop high : Height}
    (above : TipAbove db target stop high) (positive : 0 < batchSize)
    (dryRun : Bool) :
    rollbackToHeight db target batchSize dryRun =
      some (afterWindows db stop high dryRun, countWindow db stop high) := by
  obtain ⟨⟨current, found, top⟩, bottom, gap⟩ := above
  have beyond : ¬ current ≤ target := by
    rw [Height.le_def]
    omega
  unfold rollbackToHeight
  rw [if_pos positive, found]
  simp only [if_neg beyond, Height.increment_eq_some.mpr bottom, Height.increment_eq_some.mpr top,
    Option.bind_eq_bind, Option.bind_some]
  rw [rollbackLoop_eq positive dryRun _ _ _ _ (Height.le_def.mpr gap.le) (by omega),
    RollbackReport.zero_add]

theorem tipAbove_of_not_tipWithin {db : Db S} {target : Height} (beyond : ¬ TipWithin db target) :
    ∃ current, db.maxHeight = some current ∧
      (current.val + 1 < 2 ^ 64 → ∃ stop high, TipAbove db target stop high) := by
  obtain ⟨current, found, higher⟩ : ∃ current, db.maxHeight = some current ∧
      ¬ current ≤ target := by
    simpa [TipWithin] using beyond
  have less : target.val < current.val := not_le.mp higher
  refine ⟨current, found, fun fits => ⟨⟨target.val + 1, by omega⟩, ⟨current.val + 1, fits⟩, ?_⟩⟩
  exact ⟨⟨current, found, rfl⟩, rfl, Nat.succ_lt_succ less⟩

theorem rollbackToHeight_cases {db after : Db S} {target : Height} {dryRun : Bool}
    {report : RollbackReport}
    (done : rollbackToHeight db target batchSize dryRun = some (after, report)) :
    TipWithin db target ∨ ∃ stop high, TipAbove db target stop high := by
  unfold rollbackToHeight at done
  split_ifs at done with positive
  cases found : db.maxHeight with
  | none => exact Or.inl fun current other => by rw [found] at other; cases other
  | some current =>
    by_cases within : current ≤ target
    · refine Or.inl fun other same => ?_
      rw [found] at same
      exact Option.some_inj.mp same ▸ within
    · simp only [found, if_neg within, Option.bind_eq_bind, Option.bind_eq_some_iff] at done
      obtain ⟨stop, bottom, high, top, _⟩ := done
      have bottomVal := Height.increment_eq_some.mp bottom
      have topVal := Height.increment_eq_some.mp top
      rw [Height.le_def] at within
      exact Or.inr ⟨stop, high, ⟨current, found, topVal⟩, bottomVal, by omega⟩

/-! ### Which entries a rollback removes -/

theorem dropWindow_eq_upTo_iff {db : Db S} {target stop high : Height}
    (next : stop.val = target.val + 1) :
    dropWindow db stop high = db.upTo target ↔
      ∀ height ∈ db.heights, target < height → height < high := by
  have beyond : ∀ height : Height, stop ≤ height ↔ target < height := fun height => by
    rw [Height.le_def, Height.lt_def]
    omega
  have within : ∀ height : Height, height ≤ target ↔ height < stop := fun height => by
    rw [← not_lt, ← beyond, not_le]
  have heightTable : ∀ {V : Type} (table : Table Height V),
      (table.dropIn stop high = table.retain fun height _ => height ≤ target) ↔
        ∀ height ∈ table.keys, target < height → height < high := fun table => by
    rw [Table.dropIn_eq_retain_iff fun height _ => by rw [decide_eq_true_iff, within]]
    simp only [beyond]
  have blockTable : ∀ {V : Type} (table : Table BlockKey V),
      (table.dropIn (BlockKey.least stop) (BlockKey.least high) =
          table.retain fun key _ => key.height ≤ target) ↔
        ∀ height ∈ table.keys.map BlockKey.height, target < height → height < high :=
    fun table => by
      rw [Table.dropIn_eq_retain_iff fun key _ => by
        rw [decide_eq_true_iff, within, BlockKey.lt_least_iff]]
      simp only [List.forall_mem_map, BlockKey.lt_least_iff, BlockKey.least_le_iff, beyond]
  simp only [Db.heights, List.forall_mem_append, ← heightTable, ← blockTable, and_assoc]
  exact Db.ext_iff

theorem upTo_eq_self_iff {db : Db S} {target : Height} :
    db.upTo target = db ↔ ∀ height ∈ db.heights, height ≤ target := by
  have heightTable : ∀ {V : Type} (table : Table Height V),
      ((table.retain fun height _ => height ≤ target) = table) ↔
        ∀ height ∈ table.keys, height ≤ target := fun table => by
    simp only [Table.retain_eq_self_iff, Table.keys, List.forall_mem_map, decide_eq_true_iff]
  have blockTable : ∀ {V : Type} (table : Table BlockKey V),
      ((table.retain fun key _ => key.height ≤ target) = table) ↔
        ∀ height ∈ table.keys.map BlockKey.height, height ≤ target := fun table => by
    simp only [Table.retain_eq_self_iff, Table.keys, List.forall_mem_map, decide_eq_true_iff]
  simp only [Db.heights, List.forall_mem_append, ← heightTable, ← blockTable, and_assoc]
  exact Db.ext_iff

/-- How many entries of each table are gone. -/
def deletedCounts (before after : Db S) : RollbackReport where
  certificates := before.certificates.len - after.certificates.len
  decidedBlocks := before.decidedBlocks.len - after.decidedBlocks.len
  invalidPayloads := before.invalidPayloads.len - after.invalidPayloads.len
  misbehaviorEvidence := before.misbehaviorEvidence.len - after.misbehaviorEvidence.len
  proposalMonitorData := before.proposalMonitorData.len - after.proposalMonitorData.len
  undecidedBlocks := before.undecidedBlocks.len - after.undecidedBlocks.len
  pendingProposalParts := before.pendingProposalParts.len - after.pendingProposalParts.len

theorem countWindow_eq_deletedCounts (low high : Height) :
    countWindow db low high = deletedCounts db (dropWindow db low high) := by
  have counted : ∀ {K V : Type} [LinearOrder K] (table : Table K V) (first last : K),
      table.countIn first last = table.len - (table.dropIn first last).len := by
    intro K V _ table first last
    rw [← Table.len_dropIn_add table first last, Nat.add_sub_cancel_left]
  exact RollbackReport.ext (counted ..) (counted ..) (counted ..) (counted ..) (counted ..)
    (counted ..) (counted ..)

theorem deletedCounts_self : deletedCounts db db = {} :=
  RollbackReport.ext (Nat.sub_self _) (Nat.sub_self _) (Nat.sub_self _) (Nat.sub_self _)
    (Nat.sub_self _) (Nat.sub_self _) (Nat.sub_self _)

/-! ### Rollback as a whole -/

/-- **The contract of a rollback.** A run that succeeds leaves exactly the entries at or below the
target, whatever the batch size; a dry run changes nothing and reports what the run deletes. -/
structure RollsBackTo (db : Db S) (target : Height) (batchSize : ℕ) : Prop where
  run : ∀ after report, rollbackToHeight db target batchSize false = some (after, report) →
    after = db.upTo target
  dryRun : ∀ after report, rollbackToHeight db target batchSize true = some (after, report) →
    after = db ∧ ∃ written, rollbackToHeight db target batchSize false = some (written, report) ∧
      report = deletedCounts db written

/-- No entry above the target lies above the certificate tip. -/
def CoveredByTip (db : Db S) (target : Height) : Prop :=
  ∀ height ∈ db.heights, target < height → ∃ tip ∈ db.maxHeight, height ≤ tip
  deriving Decidable

theorem rollbackToHeight_dryRun {db after : Db S} {target : Height}
    {report : RollbackReport} (positive : 0 < batchSize)
    (done : rollbackToHeight db target batchSize true = some (after, report)) :
    after = db ∧ ∃ written, rollbackToHeight db target batchSize false = some (written, report) ∧
      report = deletedCounts db written := by
  rcases rollbackToHeight_cases done with within | ⟨stop, high, above⟩
  · rw [rollbackToHeight_of_tipWithin within positive] at done ⊢
    obtain ⟨rfl, rfl⟩ := Prod.mk.inj (Option.some_inj.mp done)
    exact ⟨rfl, db, rfl, (deletedCounts_self db).symm⟩
  · rw [rollbackToHeight_of_tipAbove above positive] at done ⊢
    obtain ⟨rfl, rfl⟩ := Prod.mk.inj (Option.some_inj.mp done)
    exact ⟨rfl, _, rfl, countWindow_eq_deletedCounts db stop high⟩

theorem coveredByTip_iff_of_tipAbove {db : Db S} {target stop high : Height}
    (above : TipAbove db target stop high) :
    CoveredByTip db target ↔ ∀ height ∈ db.heights, target < height → height < high := by
  obtain ⟨⟨current, found, top⟩, _, _⟩ := above
  have bound : ∀ height : Height,
      (∃ tip ∈ db.maxHeight, height ≤ tip) ↔ height < high := fun height => by
    rw [found, Height.lt_def, top, Nat.lt_succ_iff]
    exact ⟨fun ⟨tip, same, below⟩ => Option.some_inj.mp same ▸ below, fun below => ⟨_, rfl, below⟩⟩
  simp only [CoveredByTip, bound]

theorem coveredByTip_iff_of_tipWithin {db : Db S} {target : Height} (within : TipWithin db target) :
    CoveredByTip db target ↔ ∀ height ∈ db.heights, height ≤ target := by
  refine forall₂_congr fun height _ => ⟨fun covered => ?_, fun below above => ?_⟩
  · by_contra above
    obtain ⟨tip, found, bound⟩ := covered (not_le.mp above)
    exact above (bound.trans (within tip found))
  · exact absurd above (not_lt.mpr below)

/-- **A rollback reaches everything above its target exactly when the certificate tip covers the
other tables.** -/
theorem rollsBackTo_iff_coveredByTip (batchSize : ℕ)
    (positive : 0 < batchSize) : RollsBackTo db target batchSize ↔ CoveredByTip db target := by
  have half : RollsBackTo db target batchSize ↔ ∀ after report,
      rollbackToHeight db target batchSize false = some (after, report) → after = db.upTo target :=
    ⟨fun contract => contract.run, fun run => ⟨run, fun _ _ => rollbackToHeight_dryRun positive⟩⟩
  rw [half]
  constructor
  · intro reaches
    by_cases within : TipWithin db target
    · have same := reaches _ _ (rollbackToHeight_of_tipWithin within positive false)
      exact (coveredByTip_iff_of_tipWithin within).mpr (upTo_eq_self_iff.mp same.symm)
    · obtain ⟨current, found, split⟩ := tipAbove_of_not_tipWithin within
      by_cases fits : current.val + 1 < 2 ^ 64
      · obtain ⟨stop, high, above⟩ := split fits
        have same := reaches _ _ (rollbackToHeight_of_tipAbove above positive false)
        exact (coveredByTip_iff_of_tipAbove above).mpr
          ((dropWindow_eq_upTo_iff above.stop_val).mp same)
      · -- The tip is the largest height there is: the run panics, and no entry is above the tip.
        intro height _ _
        refine ⟨current, found, Height.le_def.mpr ?_⟩
        have := height.isLt
        omega
  · intro covered after report done
    rcases rollbackToHeight_cases done with within | ⟨stop, high, above⟩
    · rw [rollbackToHeight_of_tipWithin within positive] at done
      obtain ⟨rfl, rfl⟩ := Prod.mk.inj (Option.some_inj.mp done)
      exact (upTo_eq_self_iff.mpr ((coveredByTip_iff_of_tipWithin within).mp covered)).symm
    · rw [rollbackToHeight_of_tipAbove above positive] at done
      obtain ⟨rfl, rfl⟩ := Prod.mk.inj (Option.some_inj.mp done)
      exact (dropWindow_eq_upTo_iff above.stop_val).mpr
        ((coveredByTip_iff_of_tipAbove above).mp covered)

/-- Heights 1 and 2 are decided and a proposal for height 4 waits for its height. -/
def waitingDb : Db Schema.raw where
  certificates := (Table.insert ∅ 1 [1]).insert 2 [1]
  decidedBlocks := (Table.insert ∅ 1 [3]).insert 2 [3]
  invalidPayloads := ∅
  misbehaviorEvidence := ∅
  proposalMonitorData := ∅
  undecidedBlocks := ∅
  pendingProposalParts := Table.insert ∅ ⟨4, .some 0, 7⟩ [1]

/-- Rolling the waiting database back to height 1 keeps the proposal for height 4. -/
theorem not_rollsBackTo_waitingDb : ¬ RollsBackTo waitingDb 1 1000 := by
  intro contract
  have same := contract.run _ _ rfl
  have kept := congrArg (fun db => db.pendingProposalParts.len) same
  revert kept
  decide

/-- Rolled back to height 1 after the proposal for height 4 is gone, in batches of one height. -/
theorem rollsBackTo_iff_coveredByTip_settled :
    RollsBackTo { waitingDb with pendingProposalParts := ∅ } 1 1 :=
  (rollsBackTo_iff_coveredByTip _ 1 1 (by decide)).mpr (by decide)

end ArcNode.Store
