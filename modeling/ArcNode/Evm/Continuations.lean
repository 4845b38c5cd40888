/-
**Subcall continuations match the frame stack.**

The frames that were pushed and have not returned are read off the events of a run (`held`), each
with the continuation that `init_subcall` made for it. In every run these are the frames of the
stack, and the stored continuations are theirs, each at the depth below its frame
(**`continuations_match_stack`**). For the proof, a frame is tagged with the journal its checkpoint
was taken of and, for a subcall, with the continuation and the journal that was saved (`Tag`); a
turn changes the tags as its event says (**`tracks_happens`**).
-/

import Mathlib
import ArcNode.Evm.MachineSpec

namespace ArcNode.Evm

open ArcNode.Lib ArcNode.Lib.Journal ArcNode.Types

/-! ### Tagged frames -/

/-- A frame, the journal it was opened on and, if `init_subcall` pushed it, its continuation and the
journal that was saved before it. -/
structure Tag where
  frame : Frame
  base : EvmJournal
  subcall : Option (SubcallContinuation × EvmJournal)

namespace Tag

def layers (tag : Tag) : List (Layer Address Account Record) :=
  ⟨tag.frame.checkpoint, tag.base, true⟩ ::
    match tag.subcall with
    | none => []
    | some (continuation, saved) => [⟨continuation.checkpoint, saved, false⟩]

def entry (tag : Tag) : Frame × Option SubcallContinuation := (tag.frame, tag.subcall.map Prod.fst)

/-- The tag of a frame that was just pushed: its checkpoints lead back to their journals. -/
def of (frame : Frame) (continuation : Option SubcallContinuation) (journal : EvmJournal) : Tag :=
  ⟨frame, journal.revert frame.checkpoint, continuation.map fun stored =>
    (stored, (journal.revert frame.checkpoint).enter.revert stored.checkpoint)⟩

/-- A subcall pushes a call frame, and between the saved journal and the frame's own only warmth
changed. -/
def Linked (tag : Tag) : Prop :=
  ∀ continuation saved, tag.subcall = some (continuation, saved) →
    tag.frame.creates = none ∧ Warms saved tag.base

end Tag

/-- The depth that the next frame input gets. -/
def nextDepth : List Tag → ℕ
  | [] => 0
  | tag :: _ => tag.frame.depth + 1

/-- The continuations of tagged frames, each at the depth below its frame. -/
def table : List Tag → ℕ → Option SubcallContinuation
  | [] => fun _ => none
  | tag :: rest => storeContinuation (tag.frame.depth - 1) (tag.subcall.map Prod.fst) (table rest)

/-- A frame is one deeper than the one below it, a subcall's two. -/
def Spaced : List Tag → Prop
  | [] => True
  | tag :: rest =>
    tag.frame.depth = (if tag.subcall.isSome then nextDepth rest + 1 else nextDepth rest) ∧ Spaced rest

section Tables

variable {tag : Tag} {rest tags : List Tag}

theorem table_eq_none {tags : List Tag} (spaced : Spaced tags) {depth : ℕ}
    (above : nextDepth tags ≤ depth + 1) : table tags depth = none := by
  induction tags with
  | nil => rfl
  | cons tag rest ih =>
    obtain ⟨deep, spacedRest⟩ := spaced
    have top : tag.frame.depth + 1 ≤ depth + 1 := above
    cases kind : tag.subcall with
    | none =>
      rw [kind, Option.isSome_none, if_neg Bool.false_ne_true] at deep
      rw [table, kind]
      exact ih spacedRest (by omega)
    | some subcall =>
      rw [kind, Option.isSome_some, if_pos rfl] at deep
      rw [table, kind]
      show Function.update (table rest) (tag.frame.depth - 1) (some subcall.1) depth = none
      rw [Function.update_of_ne (by omega)]
      exact ih spacedRest (by omega)

/-- **The top frame finds its own continuation**, if it has one. -/
theorem continuationOf_table (spaced : Spaced (tag :: rest)) :
    continuationOf (table (tag :: rest)) tag.frame = tag.subcall.map Prod.fst := by
  obtain ⟨deep, spacedRest⟩ := spaced
  unfold continuationOf
  cases kind : tag.subcall with
  | none =>
    rw [kind, Option.isSome_none, if_neg Bool.false_ne_true] at deep
    cases depth : tag.frame.depth with
    | zero => rfl
    | succ below =>
      rw [table, kind]
      exact table_eq_none spacedRest (by omega)
  | some subcall =>
    rw [kind, Option.isSome_some, if_pos rfl] at deep
    rw [table, kind, deep]
    exact Function.update_self _ _ _

/-- What is left of the continuations when the top frame has taken its own. -/
theorem table_tail_of_none (alone : tag.subcall.map Prod.fst = none) :
    table (tag :: rest) = table rest := by
  rw [table, alone]
  rfl

theorem table_tail_of_some (spaced : Spaced (tag :: rest)) {continuation : SubcallContinuation}
    (owned : tag.subcall.map Prod.fst = some continuation) :
    Function.update (table (tag :: rest)) (tag.frame.depth - 1) none = table rest := by
  obtain ⟨deep, spacedRest⟩ := spaced
  have some : tag.subcall.isSome = true := by
    rw [← Option.isSome_map (f := Prod.fst), owned]
    rfl
  rw [some, if_pos rfl] at deep
  rw [table, owned]
  show Function.update (Function.update (table rest) _ _) _ none = table rest
  rw [Function.update_idem]
  refine Function.update_eq_self_iff.mpr ?_
  exact (table_eq_none spacedRest (by omega)).symm

end Tables

/-! ### Machines and their tags -/

/-- Stack, continuations and journal of a machine are those of its tagged frames. -/
structure Tracks (machine : Machine) (tags : List Tag) : Prop where
  stack : machine.stack = tags.map Tag.frame
  continuations : machine.continuations = table tags
  spaced : Spaced tags
  layered : Layered (tags.flatMap Tag.layers) machine.journal
  linked : ∀ tag ∈ tags, tag.Linked
  ended : ∀ result, machine.ending = some (.finished result) → tags = []

/-- The tags after a turn with the given event. -/
def retag (event : Event) (journal : EvmJournal) (tags : List Tag) : List Tag :=
  match event with
  | .none => tags
  | .pushed frame continuation => Tag.of frame continuation journal :: tags
  | .popped _ _ _ _ => tags.tail

section Tracking

variable {env : Env} {registry : SubcallRegistry} {tags : List Tag} {journal after : EvmJournal}
  {input : FrameInput} {frame : Frame} {continuation : Option SubcallContinuation}

theorem tracks_entered (spaced : Spaced tags) (layered : Layered (tags.flatMap Tag.layers) journal)
    (linked : ∀ tag ∈ tags, tag.Linked)
    (entered : Entered (nextDepth tags) input journal after frame continuation) :
    Tracks ⟨after, frame :: tags.map Tag.frame,
      storeContinuation (nextDepth tags) continuation (table tags), none⟩
      (Tag.of frame continuation after :: tags) := by
  cases continuation with
  | none =>
    obtain ⟨ready, opened⟩ := entered
    have base : after.revert frame.checkpoint = ready := opened.revert
    refine ⟨rfl, rfl, ⟨opened.depth, spaced⟩, ?_, ?_, fun _ finished => nomatch finished⟩
    · show Layered (⟨frame.checkpoint, after.revert frame.checkpoint, true⟩ ::
        tags.flatMap Tag.layers) after
      rw [base, opened.mark]
      exact (layered.extends opened.before).open opened.since
    · refine List.forall_mem_cons.mpr ⟨?_, linked⟩
      intro _ _ none
      cases none
  | some stored =>
    obtain ⟨child, saved, ready, warms, taken, -, -, opened⟩ := entered
    have base : after.revert frame.checkpoint = ready := opened.revert
    have quiet : Warms saved ready := opened.quiet child rfl
    have back : ready.enter.revert stored.checkpoint = saved := by
      rw [taken]
      exact revert_mark quiet.grown.enter
    refine ⟨rfl, ?_, ⟨opened.depth, spaced⟩, ?_, ?_, fun _ finished => nomatch finished⟩
    · show storeContinuation (nextDepth tags) (some stored) (table tags) =
        storeContinuation (frame.depth - 1) (some stored) (table tags)
      rw [opened.depth, Nat.add_sub_cancel]
    · show Layered (⟨frame.checkpoint, after.revert frame.checkpoint, true⟩ ::
        ⟨stored.checkpoint, (after.revert frame.checkpoint).enter.revert stored.checkpoint, false⟩ ::
          tags.flatMap Tag.layers) after
      rw [base, back, opened.mark, taken]
      exact ((layered.extends warms.grown).save.extends quiet.grown).open opened.since
    · refine List.forall_mem_cons.mpr ⟨?_, linked⟩
      intro kept saved' same
      rw [Tag.of, Option.map_some, Option.some.injEq, Prod.mk.injEq] at same
      obtain ⟨rfl, rfl⟩ := same
      rw [Tag.of, base, back]
      exact ⟨opened.describes.1, quiet⟩

variable (result : FrameResult)

theorem tracks_deliver (spaced : Spaced tags)
    (layered : Layered (tags.flatMap Tag.layers) after) (linked : ∀ tag ∈ tags, tag.Linked) :
    Tracks (deliver result after (tags.map Tag.frame) (table tags)) tags := by
  cases tags with
  | nil => exact ⟨rfl, rfl, spaced, layered, linked, fun _ _ => rfl⟩
  | cons tag rest => exact ⟨rfl, rfl, spaced, layered, linked, fun _ finished => nomatch finished⟩

/-- The layers that are left when a frame has ended. -/
theorem Closed.layered {layers : List (Layer Address Account Record)} {left base : EvmJournal}
    {result : FrameResult} (closed : Closed env frame left after result)
    (layered : Layered (⟨frame.checkpoint, base, true⟩ :: layers) left) : Layered layers after := by
  rcases closed.outcome with ⟨-, silent⟩ | ⟨-, same⟩
  · exact layered.leave.extends silent.grown
  · rw [same, layered.revert]
    exact layered.2.2

/-- The layers that are left when a subcall is completed. -/
theorem layered_completeSubcall {layers : List (Layer Address Account Record)} {saved : EvmJournal}
    {stored : SubcallContinuation}
    (layered : Layered (⟨stored.checkpoint, saved, false⟩ :: layers) after) :
    Layered layers (completeSubcall result stored after).2 := by
  obtain ⟨-, ⟨same, -⟩ | ⟨-, undone⟩⟩ := completeSubcall_spec result stored after
  · rw [same]
    exact layered.drop
  · rw [undone, revertSubcallCheckpoint, layered.recall]
    exact layered.2.2

theorem deliver_journal (journal : EvmJournal) (below : List Frame)
    (continuations : ℕ → Option SubcallContinuation) :
    (deliver result journal below continuations).journal = journal := by
  cases below <;> rfl

theorem Tracks.top {machine : Machine} {below : List Frame} (tracks : Tracks machine tags)
    (top : machine.stack = frame :: below) :
    ∃ tag rest, tags = tag :: rest ∧ tag.frame = frame ∧ rest.map Tag.frame = below := by
  have frames := tracks.stack.symm.trans top
  cases tags with
  | nil => cases frames
  | cons tag rest =>
    obtain ⟨first, others⟩ := List.cons.inj frames
    exact ⟨tag, rest, rfl, first, others⟩

/-- **A turn changes the tags as its event says.** -/
theorem tracks_happens {machine next : Machine} {event : Event} (tracks : Tracks machine tags)
    (happens : Happens env registry machine (next, event)) :
    Tracks next (retag event next.journal tags) := by
  cases happens with
  | idle stopped => exact tracks
  | fails top =>
    exact ⟨top.symm.trans tracks.stack, tracks.continuations, tracks.spaced, tracks.layered,
      tracks.linked, fun _ finished => nomatch finished⟩
  | works top grown turns =>
    exact ⟨top.symm.trans tracks.stack, tracks.continuations, tracks.spaced,
      tracks.layered.extends grown, tracks.linked, fun _ finished => nomatch finished⟩
  | starts top loads issued gas made =>
    obtain ⟨tag, rest, rfl, rfl, rfl⟩ := tracks.top top
    rw [tracks.continuations]
    exact tracks_entered tracks.spaced (tracks.layered.extends loads.grown) tracks.linked made.entered
  | returns top follows closed alone =>
    obtain ⟨tag, rest, rfl, rfl, rfl⟩ := tracks.top top
    have layered := tracks.layered.extends follows.grown
    rw [tracks.continuations, continuationOf_table tracks.spaced] at alone
    have kind : tag.subcall = none := Option.map_eq_none_iff.mp alone
    rw [List.flatMap_cons, Tag.layers, kind] at layered
    rw [tracks.continuations, table_tail_of_none alone]
    exact tracks_deliver _ tracks.spaced.2 (closed.layered layered)
      fun other member => tracks.linked other (List.mem_cons_of_mem _ member)
  | completes top follows closed owned =>
    obtain ⟨tag, rest, rfl, rfl, rfl⟩ := tracks.top top
    have layered := tracks.layered.extends follows.grown
    rw [tracks.continuations, continuationOf_table tracks.spaced] at owned
    obtain ⟨⟨stored, saved⟩, kind, rfl⟩ := Option.map_eq_some_iff.mp owned
    rw [List.flatMap_cons, Tag.layers, kind] at layered
    rw [tracks.continuations, table_tail_of_some tracks.spaced owned]
    exact tracks_deliver _ tracks.spaced.2 (layered_completeSubcall _ (closed.layered layered))
      fun other member => tracks.linked other (List.mem_cons_of_mem _ member)

theorem tracks_step {machine : Machine} (tracks : Tracks machine tags) (action : Action) :
    Tracks (step env registry machine action).1
      (retag (step env registry machine action).2 (step env registry machine action).1.journal tags) :=
  tracks_happens tracks (happens_step machine action)

theorem tracks_start (env : Env) (registry : SubcallRegistry) (input : FrameInput)
    (journal : EvmJournal) :
    Tracks (start env registry input journal).1
      (retag (start env registry input journal).2 (start env registry input journal).1.journal []) := by
  have made := @frameMade_frameInit env registry 0 input journal
  dsimp only [start]
  generalize frameInit env registry 0 input journal = started at made ⊢
  obtain ⟨outcome, after⟩ := started
  cases outcome with
  | item frame continuation =>
    have none : ∀ tag ∈ ([] : List Tag), tag.Linked := fun _ member => nomatch member
    exact @tracks_entered [] journal after input frame continuation trivial trivial none made.entered
  | result result =>
    exact ⟨rfl, rfl, trivial, trivial, (fun _ member => nomatch member), fun _ _ => rfl⟩

end Tracking

/-! ### The frames a run holds -/

/-- The frames that were pushed and not popped, with the continuations they were pushed with. -/
def Event.hold (held : List (Frame × Option SubcallContinuation)) :
    Event → List (Frame × Option SubcallContinuation)
  | .none => held
  | .pushed frame continuation => (frame, continuation) :: held
  | .popped _ _ _ _ => held.tail

def held (begun : Machine × Event) (events : List Event) :
    List (Frame × Option SubcallContinuation) :=
  events.foldl Event.hold (begun.2.hold [])

theorem retag_entries (event : Event) (journal : EvmJournal) (tags : List Tag) :
    (retag event journal tags).map Tag.entry = event.hold (tags.map Tag.entry) := by
  cases event with
  | none => rfl
  | pushed frame continuation =>
    show (frame, (continuation.map _).map Prod.fst) :: _ = (frame, continuation) :: _
    rw [Option.map_map]
    cases continuation <;> rfl
  | popped frame result continuation answer => exact List.map_tail

section Runs

variable {env : Env} {registry : SubcallRegistry}

theorem tracks_run {machine : Machine} {tags : List Tag} (tracks : Tracks machine tags)
    (actions : List Action) :
    ∃ last, Tracks (run (step env registry) machine actions) last ∧
      last.map Tag.entry = (outputs (step env registry) machine actions).foldl Event.hold
        (tags.map Tag.entry) := by
  induction actions generalizing machine tags with
  | nil => exact ⟨tags, tracks, rfl⟩
  | cons action rest ih =>
    obtain ⟨last, after, entries⟩ := ih (tracks_step tracks action)
    rw [retag_entries] at entries
    exact ⟨last, after, entries⟩

theorem table_eq_some_iff {tags : List Tag} (spaced : Spaced tags) (depth : ℕ)
    (continuation : SubcallContinuation) :
    table tags depth = some continuation ↔
      ∃ frame, (frame, some continuation) ∈ tags.map Tag.entry ∧ frame.depth = depth + 1 := by
  induction tags with
  | nil => simp [table]
  | cons tag rest ih =>
    obtain ⟨deep, spacedRest⟩ := spaced
    simp only [List.map_cons, List.mem_cons, or_and_right, exists_or, ← ih spacedRest]
    cases kind : tag.subcall with
    | none =>
      rw [table, kind]
      simp [Tag.entry, kind, storeContinuation]
    | some subcall =>
      rw [kind, Option.isSome_some, if_pos rfl] at deep
      rw [table, kind]
      show Function.update (table rest) (tag.frame.depth - 1) (some subcall.1) depth = _ ↔ _
      simp only [Tag.entry, kind, Option.map_some, Prod.mk.injEq, Option.some.injEq]
      by_cases here : depth = tag.frame.depth - 1
      · have free : table rest depth = none := table_eq_none spacedRest (by omega)
        have above : tag.frame.depth = depth + 1 := by omega
        rw [here, Function.update_self, ← here, free]
        constructor
        · intro same
          exact Or.inl ⟨tag.frame, ⟨rfl, (Option.some.inj same).symm⟩, above⟩
        · rintro (⟨frame, ⟨rfl, rfl⟩, -⟩ | none)
          · rfl
          · cases none
      · rw [Function.update_of_ne here]
        constructor
        · exact Or.inr
        · rintro (⟨frame, ⟨rfl, rfl⟩, above⟩ | stored)
          · exact (here (by omega)).elim
          · exact stored

/-- **Subcall continuations match the frame stack.** In every run, the frames pushed and not popped
are those of the stack; a continuation is stored at a depth exactly when a frame one deeper was
pushed with it and is held; storing one overwrites none; a frame that finishes is completed with the
continuation it was pushed with, and with none otherwise; and a run that returns a result leaves no
continuation. -/
theorem continuations_match_stack (env : Env) (registry : SubcallRegistry) (input : FrameInput)
    (journal : EvmJournal) (actions : List Action) :
    let begun := start env registry input journal
    let machine := run (step env registry) begun.1 actions
    let holds := held begun (outputs (step env registry) begun.1 actions)
    holds.map Prod.fst = machine.stack ∧
      (∀ depth continuation, machine.continuations depth = some continuation ↔
        ∃ frame, (frame, some continuation) ∈ holds ∧ frame.depth = depth + 1) ∧
      (∀ action, match (step env registry machine action).2 with
        | .none => True
        | .pushed frame continuation => ∀ stored, continuation = some stored →
            ∃ depth, frame.depth = depth + 1 ∧ machine.continuations depth = none ∧
              (step env registry machine action).1.continuations =
                Function.update machine.continuations depth (some stored)
        | .popped frame _ continuation _ => ∃ rest, holds = (frame, continuation) :: rest) ∧
      ∀ result, machine.ending = some (.finished result) → machine.continuations = fun _ => none := by
  intro begun machine holds
  obtain ⟨tags, tracks, entries⟩ :=
    @tracks_run env registry _ _ (tracks_start env registry input journal) actions
  have same : holds = tags.map Tag.entry := by
    rw [entries, retag_entries]
    rfl
  refine ⟨?_, ?_, ?_, ?_⟩
  · rw [same, List.map_map, tracks.stack]
    rfl
  · intro depth continuation
    rw [same, tracks.continuations]
    exact table_eq_some_iff tracks.spaced depth continuation
  · intro action
    have happens := @happens_step env registry machine action
    generalize step env registry machine action = next at happens ⊢
    cases happens with
    | idle stopped | fails top | works top grown turns => trivial
    | @starts frame child below input' loaded after continuation top loads issued gas made =>
      rintro stored rfl
      obtain ⟨tag, rest, rfl, rfl, rfl⟩ := tracks.top top
      obtain ⟨_, _, _, _, _, _, _, opened⟩ := made.entered
      refine ⟨tag.frame.depth + 1, opened.depth, ?_, rfl⟩
      rw [tracks.continuations]
      exact table_eq_none tracks.spaced (Nat.le_succ _)
    | returns top follows closed alone =>
      obtain ⟨tag, rest, rfl, rfl, rfl⟩ := tracks.top top
      rw [tracks.continuations, continuationOf_table tracks.spaced] at alone
      refine ⟨rest.map Tag.entry, ?_⟩
      rw [same, List.map_cons, Tag.entry, alone]
    | completes top follows closed owned =>
      obtain ⟨tag, rest, rfl, rfl, rfl⟩ := tracks.top top
      rw [tracks.continuations, continuationOf_table tracks.spaced] at owned
      refine ⟨rest.map Tag.entry, ?_⟩
      rw [same, List.map_cons, Tag.entry, owned]
  · intro result finished
    rw [tracks.continuations, tracks.ended result finished]
    rfl

end Runs

/-- The call data of `callFrom(0x11, 0x22, "")`. -/
def forwardData : List Byte :=
  [0x15, 0x95, 0xec, 0x0b] ++ beBytes 32 0x11 ++ beBytes 32 0x22 ++ beBytes 32 0x60 ++ beBytes 32 0

/-- An environment that decodes this call data. -/
def forwardEnv : Env :=
  { (default : Env) with
    flags := ⟨true, true, true, true, true, true⟩
    callFromCall := fun input => if input = forwardData then some (0x11, 0x22, []) else none
    txCaller := 0x11 }

/-- Memo and the target of the call are contracts. -/
def forwardJournal : EvmJournal := Journal.new fun address =>
  StoredAccount.load (if address = memoAddress ∨ address = 0x22 then ⟨0, 1, .contract [0], fun _ => 0⟩
    else .absent)

/-- Memo calls CallFrom, the child logs and reverts, and Memo returns: the machine after each
turn. -/
def forwardMachines : List Machine :=
  let registry := buildSubcallRegistry forwardEnv
  let begun := start forwardEnv registry (.call ⟨.call, memoAddress, memoAddress, .contract [0],
    .transfer 0, [], 200000, false, 0x11⟩) forwardJournal
  ([.call .call callFromAddress 0 forwardData 100000, .log [7] [], .finish .revert .empty 50 0 false,
    .finish .returned .empty 0 0 false] : List Action).inits.map (run (step forwardEnv registry) begun.1)

example : forwardMachines.map (fun machine =>
    (machine.stack.map Frame.depth, (machine.continuations 1).isSome)) =
      [([0], false), ([2, 0], true), ([2, 0], true), ([0], false), ([], false)] := by
  decide +kernel

end ArcNode.Evm
