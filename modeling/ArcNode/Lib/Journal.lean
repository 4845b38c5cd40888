/-
**A journal that can be taken back.**

A `Journal` is a table of cells with the list of their overwritten values, newest first, and a list
of records. A checkpoint is the length of the two lists (`mark`); a journal that only grew since is
taken back to what it was by `revert` (**`revert_mark`**). `enter` and `leave` count the open
checkpoints.

`Layered layers journal` says what the open checkpoints stand for: the journal only grew since the
newest, that one's journal only since the one before it, and so on, with one rule for each operation
(**`Layered.extends`**, **`Layered.open`**, **`Layered.leave`**, **`Layered.revert`**). `Always
holds journal` is the simpler rule for the cells alone: `holds` is true now and before every write
that can still be undone (**`Always.write`**, **`Always.revert`**).
-/

import Mathlib

namespace ArcNode.Lib

structure Checkpoint where
  entries : ℕ
  records : ℕ

/-- Cells, the values they had before each write, and records; both lists newest first. -/
structure Journal (κ ν ρ : Type*) where
  cells : κ → ν
  entries : List (κ × ν)
  records : List ρ
  depth : ℕ

section Journal

variable {κ ν ρ : Type*}

variable (note : ρ) (journal : Journal κ ν ρ)

namespace Journal

def new (cells : κ → ν) : Journal κ ν ρ := ⟨cells, [], [], 0⟩

def record : Journal κ ν ρ :=
  ⟨journal.cells, journal.entries, note :: journal.records, journal.depth⟩

def mark : Checkpoint := ⟨journal.entries.length, journal.records.length⟩

def enter : Journal κ ν ρ :=
  ⟨journal.cells, journal.entries, journal.records, journal.depth + 1⟩

/-- The newest checkpoint is committed: what was written since stays. -/
def leave : Journal κ ν ρ :=
  ⟨journal.cells, journal.entries, journal.records, journal.depth - 1⟩

@[simp] theorem record_cells : (journal.record note).cells = journal.cells := rfl

@[simp] theorem record_records : (journal.record note).records = note :: journal.records := rfl

@[simp] theorem enter_cells : journal.enter.cells = journal.cells := rfl

@[simp] theorem enter_records : journal.enter.records = journal.records := rfl

@[simp] theorem leave_cells : journal.leave.cells = journal.cells := rfl

@[simp] theorem leave_records : journal.leave.records = journal.records := rfl

end Journal

variable [DecidableEq κ]

/-- The cells before a list of writes, newest first, given the values they overwrote. -/
def undo : (κ → ν) → List (κ × ν) → κ → ν
  | cells, [] => cells
  | cells, (key, value) :: rest => undo (Function.update cells key value) rest

theorem undo_append (cells : κ → ν) (newer older : List (κ × ν)) :
    undo cells (newer ++ older) = undo (undo cells newer) older := by
  induction newer generalizing cells with
  | nil => rfl
  | cons entry rest ih => exact ih _

namespace Journal

variable (key : κ) (value : ν)

def write (journal : Journal κ ν ρ) : Journal κ ν ρ :=
  ⟨Function.update journal.cells key value, (key, journal.cells key) :: journal.entries,
    journal.records, journal.depth⟩

/-- Back to a checkpoint. -/
def revert (checkpoint : Checkpoint) (journal : Journal κ ν ρ) : Journal κ ν ρ :=
  ⟨undo journal.cells (journal.entries.take (journal.entries.length - checkpoint.entries)),
    journal.entries.drop (journal.entries.length - checkpoint.entries),
    journal.records.drop (journal.records.length - checkpoint.records), journal.depth - 1⟩

@[simp] theorem write_cells (journal : Journal κ ν ρ) :
    (journal.write key value).cells = Function.update journal.cells key value := rfl

@[simp] theorem write_records (journal : Journal κ ν ρ) :
    (journal.write key value).records = journal.records := rfl

/-! ### Growing -/

/-- `newer` is `older` after some writes and records, with no checkpoint opened or closed. -/
def Extends (older newer : Journal κ ν ρ) : Prop :=
  ∃ changes notes, newer.entries = changes ++ older.entries ∧
    newer.records = notes ++ older.records ∧ undo newer.cells changes = older.cells ∧
    newer.depth = older.depth

theorem Extends.refl : Extends journal journal :=
  ⟨[], [], rfl, rfl, rfl, rfl⟩

theorem Extends.trans {first second third : Journal κ ν ρ} (here : Extends first second)
    (there : Extends second third) : Extends first third := by
  obtain ⟨changes, notes, entries, records, cells, depth⟩ := here
  obtain ⟨changes', notes', entries', records', cells', depth'⟩ := there
  refine ⟨changes' ++ changes, notes' ++ notes, ?_, ?_, ?_, depth'.trans depth⟩
  · rw [entries', entries, List.append_assoc]
  · rw [records', records, List.append_assoc]
  · rw [undo_append, cells', cells]

theorem extends_write (journal : Journal κ ν ρ) : Extends journal (journal.write key value) := by
  refine ⟨[(key, journal.cells key)], [], rfl, rfl, ?_, rfl⟩
  simp [undo]

theorem extends_record : Extends journal (journal.record note) :=
  ⟨[], [note], rfl, rfl, rfl, rfl⟩

/-- **A journal that only grew since a checkpoint goes back to what it was.** -/
theorem revert_mark {older newer : Journal κ ν ρ} (grown : Extends older.enter newer) :
    newer.revert older.mark = older := by
  obtain ⟨changes, notes, entries, records, cells, depth⟩ := grown
  have above : newer.entries.length - older.mark.entries = changes.length := by
    simp [entries, mark, enter]
  have noted : newer.records.length - older.mark.records = notes.length := by
    simp [records, mark, enter]
  unfold revert
  rw [above, noted, entries, records, List.take_left, List.drop_left, List.drop_left, cells, depth]
  rfl

theorem Extends.leave {older newer : Journal κ ν ρ} (grown : Extends older.enter newer) :
    Extends older newer.leave := by
  obtain ⟨changes, notes, entries, records, cells, depth⟩ := grown
  exact ⟨changes, notes, entries, records, cells, by simp [Journal.leave, depth, enter]⟩

theorem Extends.enter {older newer : Journal κ ν ρ} (grown : Extends older newer) :
    Extends older.enter newer.enter := by
  obtain ⟨changes, notes, entries, records, cells, depth⟩ := grown
  exact ⟨changes, notes, entries, records, cells, by simp [Journal.enter, depth]⟩

/-! ### Properties of the cells -/

section Always

variable {holds : (κ → ν) → Prop} {journal : Journal κ ν ρ}

/-- A property of the cells, now and before each write that can be undone. -/
def Always (holds : (κ → ν) → Prop) (journal : Journal κ ν ρ) : Prop :=
  ∀ count, holds (undo journal.cells (journal.entries.take count))

theorem Always.now (always : Always holds journal) : holds journal.cells := always 0

theorem always_new {cells : κ → ν} (begins : holds cells) :
    Always holds (Journal.new cells : Journal κ ν ρ) := by
  intro count
  rw [show (Journal.new cells : Journal κ ν ρ).entries = [] from rfl, List.take_nil]
  exact begins

theorem Always.write (always : Always holds journal) {key : κ} {value : ν}
    (writes : holds (Function.update journal.cells key value)) :
    Always holds (journal.write key value) := by
  intro count
  cases count with
  | zero => exact writes
  | succ count =>
    show holds (undo (Function.update (Function.update journal.cells key value) key
      (journal.cells key)) (journal.entries.take count))
    rw [Function.update_idem, Function.update_eq_self]
    exact always count

theorem Always.revert (always : Always holds journal) (checkpoint : Checkpoint) :
    Always holds (journal.revert checkpoint) := by
  intro count
  show holds (undo (undo journal.cells (journal.entries.take _)) ((journal.entries.drop _).take count))
  rw [← undo_append, ← List.take_add]
  exact always _

end Always

/-! ### Open checkpoints -/

/-- A checkpoint that was taken and the journal it was taken of; it was opened, or only saved. -/
structure Layer (κ ν ρ : Type*) where
  checkpoint : Checkpoint
  base : Journal κ ν ρ
  opened : Bool

/-- The journal that what was written above a layer is written to. -/
def Layer.floor (layer : Layer κ ν ρ) : Journal κ ν ρ :=
  if layer.opened then layer.base.enter else layer.base

/-- The journal only grew since the newest checkpoint, its base only since the one before it, and so
on. -/
def Layered : List (Layer κ ν ρ) → Journal κ ν ρ → Prop
  | [], _ => True
  | layer :: rest, journal =>
    layer.checkpoint = layer.base.mark ∧ Extends layer.floor journal ∧ Layered rest layer.base

variable {layers : List (Layer κ ν ρ)} {checkpoint : Checkpoint} {base journal newer : Journal κ ν ρ}

/-- **Writes and records** keep the layers. -/
theorem Layered.extends (layered : Layered layers journal) (grown : Extends journal newer) :
    Layered layers newer := by
  cases layers with
  | nil => trivial
  | cons layer rest => exact ⟨layered.1, layered.2.1.trans grown, layered.2.2⟩

/-- **A new checkpoint** and what was written since. -/
theorem Layered.open (layered : Layered layers base) (grown : Extends base.enter newer) :
    Layered (⟨base.mark, base, true⟩ :: layers) newer :=
  ⟨rfl, grown, layered⟩

theorem Layered.save (layered : Layered layers base) :
    Layered (⟨base.mark, base, false⟩ :: layers) base :=
  ⟨rfl, Extends.refl base, layered⟩

theorem Layered.leave (layered : Layered (⟨checkpoint, base, true⟩ :: layers) journal) :
    Layered layers journal.leave :=
  layered.2.2.extends layered.2.1.leave

/-- **Going back** to the newest checkpoint gives its base. -/
theorem Layered.revert (layered : Layered (⟨checkpoint, base, true⟩ :: layers) journal) :
    journal.revert checkpoint = base := by
  obtain ⟨taken, grown, -⟩ := layered
  rw [show checkpoint = base.mark from taken]
  exact revert_mark grown

theorem Layered.drop (layered : Layered (⟨checkpoint, base, false⟩ :: layers) journal) :
    Layered layers journal :=
  layered.2.2.extends layered.2.1

/-- Going back to a **saved** checkpoint, with a dummy one opened for it. -/
theorem Layered.recall (layered : Layered (⟨checkpoint, base, false⟩ :: layers) journal) :
    journal.enter.revert checkpoint = base := by
  obtain ⟨taken, grown, -⟩ := layered
  rw [show checkpoint = base.mark from taken]
  exact revert_mark grown.enter

end Journal

end Journal

end ArcNode.Lib
