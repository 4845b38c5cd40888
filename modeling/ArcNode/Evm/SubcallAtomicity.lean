/-
**A subcall is all or nothing.**

The checkpoint of a subcall is taken before its child is dispatched, and committed at once; it is
used again, through a dummy checkpoint, when the completion fails although the child succeeded.
Whatever happens in between, a subcall whose answer is not a success, or whose child failed, leaves
accounts, logs and depth as they were (**`subcall_all_or_nothing`**). A run is followed from the
turn that pushed the child to the one that pops it: as long as the child is on the stack its tag
stays where it is (`tracks_inside`), and with it the saved journal.
-/

import Mathlib
import ArcNode.Evm.Continuations

namespace ArcNode.Evm

open ArcNode.Lib ArcNode.Lib.Journal ArcNode.Types

/-- The accounts, but for what is warm, the logs and the depth are those of `older`. -/
structure Restored (older newer : EvmJournal) : Prop where
  accounts : ∀ address, (newer.cells address).cooled = (older.cells address).cooled
  records : newer.records = older.records
  depth : newer.depth = older.depth

theorem Warms.restored {older newer : EvmJournal} (warms : Warms older newer) :
    Restored older newer := by
  obtain ⟨changes, notes, -, -, -, depth⟩ := warms.grown
  exact ⟨warms.cells, warms.records, depth⟩

/-- The turns of a run: the first frame is initialized, and then the loop goes on. -/
inductive Turning (env : Env) (registry : SubcallRegistry) (input : FrameInput)
    (journal : EvmJournal) : Machine → Machine × Event → Prop
  | begins : Turning env registry input journal ⟨journal, [], fun _ => none, none⟩
      (start env registry input journal)
  | goes (front : List Action) (action : Action) : Turning env registry input journal
        (run (step env registry) (start env registry input journal).1 front)
        (step env registry (run (step env registry) (start env registry input journal).1 front) action)

section Refunds

/-- A completion forwards no refund of a child that failed. -/
theorem completeSubcall_refund {child : FrameResult} (failed : childSucceeded child = false)
    (continuation : SubcallContinuation) (journal : EvmJournal) :
    (completeSubcall child continuation journal).1.gas.refunded = 0 := by
  dsimp only [completeSubcall]
  cases charged : (Gas.new continuation.gasLimit).recordRegularCost
      (subcallGasUsed child continuation) with
  | none => rfl
  | some gas =>
    have fresh : gas.refunded = 0 := by
      unfold Gas.recordRegularCost at charged
      split_ifs at charged
      rw [← Option.some.inj charged]
      rfl
    cases continuation.precompile.completeSubcall child with
    | none => exact fresh
    | some result =>
      dsimp only
      cases result.success with
      | false => exact fresh
      | true =>
        rw [failed]
        exact fresh

end Refunds

section Atomicity

variable {env : Env} {registry : SubcallRegistry} {input : FrameInput} {journal : EvmJournal}

variable {continuation : SubcallContinuation}

/-- A child that was pushed with a continuation carries, in its tag, the journal that was saved. -/
theorem saved_of_entered {depth : ℕ} {older after : EvmJournal} {child : Frame}
    (entered : Entered depth input older after child (some continuation)) :
    ∃ saved, Warms older saved ∧
      (Tag.of child (some continuation) after).subcall = some (continuation, saved) := by
  obtain ⟨inputs, saved, ready, warms, taken, -, -, opened⟩ := entered
  have back : ready.enter.revert continuation.checkpoint = saved := by
    rw [taken]
    exact revert_mark (opened.quiet inputs rfl).grown.enter
  refine ⟨saved, warms, ?_⟩
  rw [Tag.of, opened.revert, Option.map_some, back]

/-- The tags around a turn that pushes the child of a subcall. -/
theorem Turning.pushed {before entered : Machine} {child : Frame}
    (turning : Turning env registry input journal before
      (entered, .pushed child (some continuation))) :
    ∃ tags saved, before.stack = tags.map Tag.frame ∧ Warms before.journal saved ∧
      (Tag.of child (some continuation) entered.journal).subcall = some (continuation, saved) ∧
      Tracks entered (Tag.of child (some continuation) entered.journal :: tags) := by
  generalize shown : (entered, Event.pushed child (some continuation)) = next at turning
  cases turning with
  | begins =>
    have tracks := tracks_start env registry input journal
    rw [← shown] at tracks
    have made := @frameMade_frameInit env registry 0 input journal
    dsimp only [start] at shown
    generalize frameInit env registry 0 input journal = started at made shown
    obtain ⟨outcome, after⟩ := started
    cases outcome with
    | item frame stored =>
      obtain ⟨rfl, rfl, rfl⟩ : entered = _ ∧ child = frame ∧ some continuation = stored := by
        simpa using shown
      obtain ⟨saved, warms, kept⟩ := saved_of_entered made.entered
      exact ⟨[], saved, rfl, warms, kept, tracks⟩
    | result result => cases shown
  | goes front action =>
    obtain ⟨tags, held, -⟩ :=
      @tracks_run env registry _ _ (tracks_start env registry input journal) front
    have happens := @happens_step env registry
      (run (step env registry) (start env registry input journal).1 front) action
    rw [← shown] at happens
    have tracks := tracks_happens held happens
    generalize run (step env registry) (start env registry input journal).1 front = machine at *
    cases happens with
    | starts top loads issued gas made =>
      obtain ⟨saved, warms, kept⟩ := saved_of_entered made.entered
      exact ⟨tags, saved, held.stack, loads.trans warms, kept, tracks⟩

/-- As long as a frame is on the stack, its tag and those below stay as they are. -/
theorem tracks_inside {core : List Tag} {machine : Machine} {above : List Tag}
    (tracks : Tracks machine (above ++ core)) {actions : List Action}
    (inside : Along (step env registry)
      (fun machine _ => core.map Tag.frame <:+ machine.stack) machine actions)
    (still : core.map Tag.frame <:+ (run (step env registry) machine actions).stack) :
    ∃ above', Tracks (run (step env registry) machine actions) (above' ++ core) := by
  induction actions generalizing machine above with
  | nil => exact ⟨above, tracks⟩
  | cons action rest ih =>
    obtain ⟨-, insideRest⟩ := inside
    have next := @tracks_step env registry _ _ tracks action
    -- the frame is still there after this turn
    have kept : core.map Tag.frame <:+ (step env registry machine action).1.stack := by
      cases rest with
      | nil => exact still
      | cons _ _ => exact insideRest.1
    cases happened : (step env registry machine action).2 with
    | none =>
      rw [happened] at next
      exact ih next insideRest still
    | pushed frame continuation =>
      rw [happened] at next
      exact ih (show Tracks _ ((_ :: above) ++ core) from next) insideRest still
    | popped frame result continuation answer =>
      rw [happened] at next
      cases above with
      | cons tag others => exact ih next insideRest still
      | nil =>
        -- popping the frame itself would leave too short a stack
        have long := kept.length_le
        rw [next.stack] at long
        cases core with
        | nil => exact ih (show Tracks _ ([] ++ []) from next) insideRest still
        | cons tag others =>
          simp [retag] at long

theorem restored_of_completed {tag : Tag} {rest : List Tag} {left after saved : EvmJournal}
    {result : FrameResult}
    (kind : tag.subcall = some (continuation, saved)) (linked : tag.Linked)
    (layered : Layered (tag.layers ++ rest.flatMap Tag.layers) left)
    (closed : Closed env tag.frame left after result)
    (failed : (completeSubcall result continuation after).1.isOk = false ∨
      childSucceeded result = false) :
    Warms saved (completeSubcall result continuation after).2 := by
  obtain ⟨called, quiet⟩ := linked continuation saved kind
  rw [Tag.layers, kind] at layered
  have below : Layered (⟨continuation.checkpoint, saved, false⟩ :: rest.flatMap Tag.layers) after :=
    closed.layered layered
  obtain ⟨-, ⟨same, unsuccessful⟩ | ⟨-, undone⟩⟩ := completeSubcall_spec result continuation after
  · -- the child failed by itself and its own checkpoint took its writes back
    have lost : childSucceeded result = false := failed.elim unsuccessful id
    obtain ⟨outcome, rfl⟩ := closed.called called
    rcases closed.outcome with ⟨succeeded, -⟩ | ⟨-, reverted⟩
    · cases succeeded.symm.trans lost
    · rw [same, reverted, layered.revert]
      exact quiet
  · rw [undone, revertSubcallCheckpoint, below.recall]
    exact Warms.refl saved

/-- **A subcall is all or nothing.** A subcall that is over at once, and one whose child was pushed
in some turn of a run and popped later, leaves accounts, logs and depth as they were if its answer
is not a success, and also if its answer is a success but its child failed, in which case no refund
of the child is forwarded. -/
theorem subcall_all_or_nothing (env : Env) (registry : SubcallRegistry) :
    (∀ depth inputs precompile older newer answer,
      initSubcall env depth inputs precompile older = (.immediate answer, newer) →
      (answer.isOk = false → Restored older newer) ∧ ∀ child left saved outcome middle,
          prepareSubcall env inputs precompile older = (.ok (child, left), saved) →
          checkedFrameInit env (depth + 1) (.call child) saved = (.result outcome, middle) →
          childSucceeded outcome = false → Restored older newer ∧ answer.gas.refunded = 0) ∧
      ∀ input journal before entered child continuation,
        Turning env registry input journal before (entered, .pushed child (some continuation)) →
        ∀ inside last outcome stored answer, Along (step env registry)
            (fun machine _ => child :: before.stack <:+ machine.stack) entered inside →
          (run (step env registry) entered inside).stack = child :: before.stack →
          (step env registry (run (step env registry) entered inside) last).2 =
            .popped child outcome stored answer →
          stored = some continuation ∧ (answer.isOk = false → Restored before.journal
              (step env registry (run (step env registry) entered inside) last).1.journal) ∧
            (childSucceeded outcome = false → Restored before.journal
              (step env registry (run (step env registry) entered inside) last).1.journal ∧
                answer.gas.refunded = 0) := by
  refine ⟨?_, ?_⟩
  · intro depth inputs precompile older newer answer made
    have spec := @prepareSubcall_spec env inputs precompile older
    dsimp only [initSubcall] at made
    generalize prepareSubcall env inputs precompile older = prepared at spec made ⊢
    obtain ⟨outcome, saved⟩ := prepared
    cases outcome with
    | error result =>
      cases made
      exact ⟨fun _ => spec.1.restored, fun _ _ _ _ _ rejected => nomatch rejected⟩
    | ok values =>
      obtain ⟨child, left⟩ := values
      have prepared : Prepared env inputs precompile older child left saved := spec
      have dispatch := @dispatched_dispatchSubcall env depth inputs precompile child left saved
      rw [show dispatchSubcall env depth inputs precompile child left saved = _ from made] at dispatch
      obtain ⟨outcome, middle, started, completed⟩ := dispatch
      have begun := @started_checkedFrameInit env (depth + 1) (.call child) saved
      rw [started] at begun
      obtain ⟨-, -, restores⟩ := completed_at_once begun.1 rfl completed
      refine ⟨fun failed => (prepared.warms.trans (restores (Or.inl failed))).restored, ?_⟩
      intro child' left' saved' outcome' middle' same again failed
      obtain ⟨⟨rfl, rfl⟩, rfl⟩ : (child = child' ∧ left = left') ∧ saved = saved' := by
        simpa using same
      obtain ⟨rfl, rfl⟩ : outcome = outcome' ∧ middle = middle' := by
        simpa using started.symm.trans again
      refine ⟨(prepared.warms.trans (restores (Or.inr failed))).restored, ?_⟩
      have refund := completeSubcall_refund failed (continuationFor inputs precompile left saved) middle
      rw [completed] at refund
      exact refund
  · intro input journal before entered child continuation turning inside last outcome stored answer
      along final popped
    obtain ⟨tags, saved, below, warms, kind, tracks⟩ := turning.pushed
    rw [below] at along final
    obtain ⟨above, inner⟩ := @tracks_inside env registry
      (Tag.of child (some continuation) entered.journal :: tags) entered [] tracks inside along
      (final ▸ List.suffix_refl _)
    have none : above = [] := by
      have lengths := congrArg List.length (inner.stack.symm.trans final)
      simp only [List.map_append, List.length_append, List.length_map, List.length_cons] at lengths
      exact List.eq_nil_of_length_eq_zero (by omega)
    subst none
    rw [List.nil_append] at inner
    have happens := @happens_step env registry (run (step env registry) entered inside) last
    generalize run (step env registry) entered inside = machine at *
    generalize step env registry machine last = next at *
    cases happens with
    | idle stopped | fails top | works top grown turns | starts top loads issued gas made => cases popped
    | returns top follows closed alone =>
      obtain ⟨tag, rest, same, rfl, rfl⟩ := inner.top top
      obtain ⟨rfl, rfl⟩ := List.cons.inj same
      rw [inner.continuations, continuationOf_table inner.spaced, kind] at alone
      cases alone
    | completes top follows closed owned =>
      obtain ⟨tag, rest, same, rfl, rfl⟩ := inner.top top
      obtain ⟨rfl, rfl⟩ := List.cons.inj same
      rw [inner.continuations, continuationOf_table inner.spaced, kind] at owned
      cases owned
      cases popped
      have linked := inner.linked _ List.mem_cons_self
      have layered := inner.layered.extends follows.grown
      rw [List.flatMap_cons] at layered
      have restores := restored_of_completed kind linked layered closed
      rw [deliver_journal]
      exact ⟨rfl, fun failed => (warms.trans (restores (Or.inl failed))).restored, fun failed =>
        ⟨(warms.trans (restores (Or.inr failed))).restored, completeSubcall_refund failed _ _⟩⟩

end Atomicity

/-- The log of the child is gone with it. -/
example : forwardMachines.map (fun machine => machine.journal.records.length) = [0, 0, 1, 0, 0] := by
  decide +kernel

end ArcNode.Evm
