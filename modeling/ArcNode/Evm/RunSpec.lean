/-
**What every run of the frames keeps.**

Let `P` be a property of ledgers that turns of a ledger keep. If it holds when a frame is started,
it holds in every state that a run reaches, and would hold after going back to any open checkpoint
(`Sound`): a turn of the execution loop makes a turn of the ledger or goes back to a layer where `P`
holds (**`sound_happens`**), and so does a whole run (**`sound_run`**). Along the way no frame runs
at an address of the two precompiles, and no frame has more gas than the first.
-/

import Mathlib
import ArcNode.Evm.Continuations

namespace ArcNode.Evm

open ArcNode.Lib ArcNode.Lib.Journal ArcNode.Types

/-- A property of ledgers holds of the journal and of every layer under it; the frames run at
unreserved addresses, with no more gas than the budget. -/
structure Sound (env : Env) (P : Ledger Address → Prop) (budget : ℕ) (machine : Machine)
    (tags : List Tag) : Prop where
  tracks : Tracks machine tags
  holds : P (view env.hashes machine.journal)
  bases : ∀ tag ∈ tags, ∀ layer ∈ tag.layers, P (view env.hashes layer.base)
  unreserved : ∀ tag ∈ tags, Unreserved tag.frame.targetAddress
  gas : ∀ tag ∈ tags, tag.frame.gasLimit ≤ budget ∧
    ∀ stored, tag.subcall.map Prod.fst = some stored → stored.gasLimit ≤ budget
  finished : ∀ result, machine.ending = some (.finished result) → result.gas.limit ≤ budget

/-- The subcall precompiles of a registry make plain calls. -/
def PlainRegistry (registry : SubcallRegistry) : Prop :=
  ∀ address precompile allowed, registry address = some (precompile, allowed) → Plain precompile

theorem plain_buildSubcallRegistry (env : Env) : PlainRegistry (buildSubcallRegistry env) := by
  intro address precompile allowed registered
  obtain ⟨-, rfl, -⟩ := buildSubcallRegistry_eq registered
  exact plain_callFrom env

/-- Turns from a ledger with the given blocklist keep a property. -/
def KeptFrom (env : Env) (P : Ledger Address → Prop) (blocked : Address → Bool) : Prop :=
  ∀ before after, before.blocked = blocked →
    Ledger.Turn (2 ^ 256) (Policed env) before after → P before → P after

section Sound

variable {env : Env} {registry : SubcallRegistry} {P : Ledger Address → Prop} {budget : ℕ}
  {machine : Machine} {tags : List Tag}

theorem sound_entered {depth : ℕ} {input : FrameInput} {older after : EvmJournal} {child : Frame}
    {continuation : Option SubcallContinuation} {tag : Tag}
    (made : FrameMade env registry depth input older (.item child continuation, after))
    (plain : PlainRegistry registry) (deployed : Deployed (view env.hashes older))
    (allowed : Allowed env depth older input) (gas : input.gasLimit ≤ budget)
    (keeps : KeptFrom env P (view env.hashes older).blocked)
    (woken : P (wakes input (view env.hashes older)))
    (named : tag = Tag.of child continuation after) :
    P (view env.hashes after) ∧ (∀ layer ∈ tag.layers, P (view env.hashes layer.base)) ∧
      Unreserved tag.frame.targetAddress ∧ tag.frame.gasLimit ≤ budget ∧
      ∀ stored, tag.subcall.map Prod.fst = some stored → stored.gasLimit ≤ budget := by
  have sleepless : ∀ {ledger : Ledger Address}, (wakes input ledger).blocked = ledger.blocked := by
    cases input <;> exact rfl
  subst named
  cases made with
  | started made =>
    have spec := @started_checkedFrameInit env depth input older
    rw [made] at spec
    obtain ⟨ready, opened, pushed⟩ := spec
    obtain ⟨unreserved, seen, steps⟩ := pushed ⟨deployed, allowed⟩
    rw [← seen] at woken
    refine ⟨keeps _ _ ?_ steps.turn woken, ?_, unreserved, opened.gas.trans_le gas,
      fun _ none => nomatch none⟩
    · rw [seen, sleepless]
    · intro layer member
      rw [List.mem_singleton.mp member]
      show P (view env.hashes (after.revert child.checkpoint))
      rw [opened.revert]
      exact woken
  | subcall made =>
    cases made with
    | @dispatched inputs childInputs precompile _ left before saved _ call registered allows warms
        prepared dispatch =>
      obtain ⟨started, rfl⟩ := dispatch
      subst call
      have loads := warms.trans prepared.warms
      have spec := @started_checkedFrameInit env (depth + 1) (.call childInputs) saved
      rw [started] at spec
      obtain ⟨ready, opened, pushed⟩ := spec
      obtain ⟨unreserved, seen, steps⟩ := pushed ⟨loads.view_eq env.hashes ▸ deployed,
        prepared.allowed (plain _ _ _ registered) (depth + 1)⟩
      have back : ready.enter.revert saved.mark = saved := revert_mark opened.before.enter
      have settled : view env.hashes ready = view env.hashes older :=
        seen.trans (loads.view_eq env.hashes)
      have held : P (view env.hashes ready) := by
        rw [settled]
        exact woken
      refine ⟨keeps _ _ (by rw [settled]) steps.turn held, ?_, unreserved,
        (opened.gas.trans_le prepared.child_gas.2).trans gas, ?_⟩
      · intro layer member
        have cases : layer = ⟨child.checkpoint, after.revert child.checkpoint, true⟩ ∨
            layer = ⟨saved.mark, (after.revert child.checkpoint).enter.revert saved.mark, false⟩ := by
          simpa [Tag.of, Tag.layers, continuationFor] using member
        rcases cases with rfl | rfl
        · show P (view env.hashes (after.revert child.checkpoint))
          rw [opened.revert]
          exact held
        · show P (view env.hashes ((after.revert child.checkpoint).enter.revert saved.mark))
          rw [opened.revert, back, loads.view_eq]
          exact woken
      · intro stored same
        rw [Tag.of, Option.map_some, Option.map_some, Option.some.injEq] at same
        rw [← same]
        exact gas

theorem Closed.holds {frame : Frame} {left after base : EvmJournal} {result : FrameResult}
    {layers : List (Layer Address Account Record)} (closed : Closed env frame left after result)
    (layered : Layered (⟨frame.checkpoint, base, true⟩ :: layers) left)
    (held : P (view env.hashes left)) (before : P (view env.hashes base)) :
    P (view env.hashes after) := by
  rcases closed.outcome with ⟨-, silent⟩ | ⟨-, same⟩
  · rw [silent.seen]
    exact held
  · rw [same, layered.revert]
    exact before

theorem deliver_finished {result answer : FrameResult} {journal : EvmJournal} {below : List Frame}
    {continuations : ℕ → Option SubcallContinuation}
    (finished : (deliver answer journal below continuations).ending = some (.finished result)) :
    result = answer := by
  cases below with
  | nil => exact (Ending.finished.inj (Option.some.inj finished)).symm
  | cons _ _ => cases finished

theorem Sound.popped {tag : Tag} {answer : FrameResult} {journal : EvmJournal} {below : List Frame}
    {continuations : ℕ → Option SubcallContinuation} (sound : Sound env P budget machine (tag :: tags))
    (tracks : Tracks (deliver answer journal below continuations) tags)
    (held : P (view env.hashes journal)) (limit : answer.gas.limit ≤ budget) :
    Sound env P budget (deliver answer journal below continuations) tags := by
  refine ⟨tracks, ?_, (List.forall_mem_cons.mp sound.bases).2,
    (List.forall_mem_cons.mp sound.unreserved).2, (List.forall_mem_cons.mp sound.gas).2, ?_⟩
  · rw [deliver_journal]
    exact held
  · intro result finished
    rw [deliver_finished finished]
    exact limit

theorem sound_happens {next : Machine} {event : Event} (sound : Sound env P budget machine tags)
    (happens : Happens env registry machine (next, event)) (plain : PlainRegistry registry)
    (deployed : ∀ ledger, P ledger → Deployed ledger)
    (keeps : KeptFrom env P (view env.hashes machine.journal).blocked) :
    Sound env P budget next (retag event next.journal tags) := by
  have tracks := tracks_happens sound.tracks happens
  cases happens with
  | idle stopped => exact sound
  | fails top =>
    exact ⟨tracks, sound.holds, sound.bases, sound.unreserved, sound.gas,
      fun _ finished => nomatch finished⟩
  | works top grown turns =>
    obtain ⟨tag, rest, rfl, rfl, rfl⟩ := sound.tracks.top top
    have ready : Ready env registry machine.journal tag.frame :=
      ⟨deployed _ sound.holds, plain, sound.unreserved tag List.mem_cons_self⟩
    exact ⟨tracks, keeps _ _ rfl (turns ready).turn sound.holds, sound.bases, sound.unreserved,
      sound.gas, fun _ finished => nomatch finished⟩
  | @starts frame child below input loaded after continuation top loads issued gas made =>
    obtain ⟨tag, rest, rfl, rfl, rfl⟩ := sound.tracks.top top
    have unreserved := sound.unreserved tag List.mem_cons_self
    have seen := loads.view_eq env.hashes
    have woken : P (wakes input (view env.hashes loaded)) := by
      rw [seen]
      cases input with
      | call inputs => exact sound.holds
      | create inputs =>
        exact keeps _ _ rfl (Ledger.Steps.turn (.single (Ledger.Step.awake inputs.caller))) sound.holds
    obtain ⟨held, bases, sited, limits⟩ := @sound_entered env registry P budget _ _ _ _ _ _ _ made
      plain (seen ▸ deployed _ sound.holds) (issued.allowed unreserved)
      (gas.trans (sound.gas tag List.mem_cons_self).1) (seen ▸ keeps) woken rfl
    exact ⟨tracks, held, List.forall_mem_cons.mpr ⟨bases, sound.bases⟩,
      List.forall_mem_cons.mpr ⟨sited, sound.unreserved⟩,
      List.forall_mem_cons.mpr ⟨limits, sound.gas⟩, fun _ finished => nomatch finished⟩
  | @returns frame below left after result top follows closed alone =>
    obtain ⟨tag, rest, rfl, rfl, rfl⟩ := sound.tracks.top top
    have layered := sound.tracks.layered.extends follows.grown
    rw [sound.tracks.continuations, continuationOf_table sound.tracks.spaced] at alone
    have kind : tag.subcall = none := Option.map_eq_none_iff.mp alone
    have bases := sound.bases tag List.mem_cons_self
    rw [List.flatMap_cons, Tag.layers, kind] at layered
    rw [Tag.layers, kind] at bases
    have held := keeps _ _ rfl follows.steps.turn sound.holds
    exact sound.popped tracks (closed.holds layered held (bases _ List.mem_cons_self))
      (closed.gas.trans_le (sound.gas tag List.mem_cons_self).1)
  | @completes frame below left after result continuation top follows closed owned =>
    obtain ⟨tag, rest, rfl, rfl, rfl⟩ := sound.tracks.top top
    have layered := sound.tracks.layered.extends follows.grown
    rw [sound.tracks.continuations, continuationOf_table sound.tracks.spaced] at owned
    obtain ⟨⟨stored, saved⟩, kind, rfl⟩ := Option.map_eq_some_iff.mp owned
    have bases := sound.bases tag List.mem_cons_self
    rw [List.flatMap_cons, Tag.layers, kind] at layered
    rw [Tag.layers, kind] at bases
    have held := closed.holds layered (keeps _ _ rfl follows.steps.turn sound.holds)
      (bases _ List.mem_cons_self)
    have below := closed.layered layered
    obtain ⟨limit, kept⟩ := completeSubcall_spec result stored after
    refine sound.popped tracks ?_ (limit.trans_le ((sound.gas tag List.mem_cons_self).2 stored owned))
    rcases kept with ⟨same, -⟩ | ⟨-, undone⟩
    · rw [same]
      exact held
    · rw [undone, revertSubcallCheckpoint, below.recall]
      exact bases ⟨stored.checkpoint, saved, false⟩ (List.mem_cons_of_mem _ List.mem_cons_self)

theorem sound_run (sound : Sound env P budget machine tags) (plain : PlainRegistry registry)
    (deployed : ∀ ledger, P ledger → Deployed ledger) {actions : List Action}
    (keeps : Along (step env registry) (fun machine _ =>
      KeptFrom env P (view env.hashes machine.journal).blocked) machine actions) :
    ∃ last, Sound env P budget (run (step env registry) machine actions) last := by
  induction actions generalizing machine tags with
  | nil => exact ⟨tags, sound⟩
  | cons action rest ih =>
    exact ih (sound_happens sound (happens_step machine action) plain deployed keeps.1) keeps.2

theorem sound_start {input : FrameInput} {journal : EvmJournal} (plain : PlainRegistry registry)
    (deployed : Deployed (view env.hashes journal)) (allowed : Allowed env 0 journal input)
    (keeps : KeptFrom env P (view env.hashes journal).blocked)
    (woken : P (wakes input (view env.hashes journal))) {first : Frame}
    {continuation : Option SubcallContinuation}
    (pushed : (start env registry input journal).2 = .pushed first continuation) :
    ∃ tags, Sound env P input.gasLimit (start env registry input journal).1 tags := by
  have tracks := tracks_start env registry input journal
  have made := @frameMade_frameInit env registry 0 input journal
  dsimp only [start] at pushed tracks ⊢
  generalize frameInit env registry 0 input journal = started at made pushed tracks ⊢
  obtain ⟨outcome, after⟩ := started
  cases outcome with
  | result result => cases pushed
  | item frame stored =>
    obtain ⟨held, bases, sited, limits⟩ := @sound_entered env registry P input.gasLimit _ _ _ _ _ _
      _ made plain deployed allowed (le_refl _) keeps woken rfl
    refine ⟨_, tracks, held, ?_, ?_, ?_, fun _ finished => nomatch finished⟩
    · exact List.forall_mem_singleton.mpr bases
    · exact List.forall_mem_singleton.mpr sited
    · exact List.forall_mem_singleton.mpr limits

theorem start_over {input : FrameInput} {journal : EvmJournal} (plain : PlainRegistry registry)
    (deployed : Deployed (view env.hashes journal)) (allowed : Allowed env 0 journal input)
    (immediate : (start env registry input journal).2 = .none) :
    ∃ result after, (start env registry input journal).1 =
        ⟨after, [], fun _ => none, some (.finished result)⟩ ∧ Turns env journal after ∧
      result.gas.limit = input.gasLimit ∧ ((∃ inputs, input = .create inputs) →
        view env.hashes after = view env.hashes journal ∨
        view env.hashes after = wakes input (view env.hashes journal)) := by
  have made := @frameMade_frameInit env registry 0 input journal
  dsimp only [start] at immediate ⊢
  generalize frameInit env registry 0 input journal = started at made immediate ⊢
  obtain ⟨outcome, after⟩ := started
  cases outcome with
  | item frame stored => cases immediate
  | result result =>
    refine ⟨result, after, rfl, made.turns deployed plain allowed, made.grown.2, ?_⟩
    rintro ⟨inputs, rfl⟩
    cases made with
    | ended made =>
      have spec := @started_checkedFrameInit env 0 (.create inputs) journal
      rw [made] at spec
      exact (spec.2 ⟨deployed, allowed⟩).created inputs rfl
    | answered made =>
      cases made with
      | rejected warms failed gas => exact Or.inl (warms.view_eq env.hashes)
      | dispatched call _ _ _ _ _ => cases call

end Sound

end ArcNode.Evm
