/-
**Where consensus continues after a start.**

A handshake that succeeds ends in one of three ways (`StartPath`): nothing was missing and the head
of the execution layer is the previous block; every missing payload was stored and the last replayed
one is; or a payload was gone and the block of the checkpoint sync is
(**`handshakeAndReplay_path`**). Only the polling loop of the checkpoint sync compares a hash with
the certificate, so the previous block is the certified one exactly when the head, the stored
payload or the layer's answers happen to be (**`starts_at_tip_iff`**).
-/

import ArcNode.App.Handshake

namespace ArcNode.App

open ArcNode.Lib ArcNode.Types ArcNode.Store

/-! ### What is replayed -/

section Stored

variable (db : AppDb)

def latestHeightCons : Height := db.maxHeight.getD 0

/-- The decided payloads from a height on, up to the first that is missing and at most `count`. -/
def storedFrom : ℕ → Height → List ExecutionPayload
  | 0, _ => []
  | count + 1, height =>
    match db.decidedBlocks.get height with
    | none => []
    | some payload => payload :: height.increment.elim [] (storedFrom count)

def missingHeights (head : ExecutionBlock) : ℕ :=
  (latestHeightCons db).val - head.blockNumber.val

/-- The stored payloads above the head of the execution layer. -/
def storedAbove (head : ExecutionBlock) : List ExecutionPayload :=
  head.blockNumber.increment.elim [] (storedFrom db (missingHeights db head))

theorem le_latestHeightCons {db : AppDb} {height : Height}
    (certified : (db.certificates.get height).isSome = true) : height ≤ latestHeightCons db := by
  unfold latestHeightCons
  cases found : db.maxHeight with
  | none =>
    rw [Db.maxHeight_eq_none.mp found] at certified
    cases certified
  | some tip => exact (Db.maxHeight_eq_some.mp found).2 height (Table.mem_keys.mpr certified)

end Stored

/-- Each payload has the one before it as parent, and the first one the given hash. -/
def ParentLinked : BlockHash → List ExecutionPayload → Prop
  | _, [] => True
  | hash, payload :: rest => payload.parentHash = hash ∧ ParentLinked payload.blockHash rest

/-! ### The three ways a handshake ends -/

/-- **The block a successful handshake ends with.** -/
inductive StartPath (layer : ExecutionLayer) (db : AppDb) (head : ExecutionBlock) :
    ExecutionBlock → Prop where
  | nothing (level : head.blockNumber = latestHeightCons db) : StartPath layer db head head
  | replayed (below : head.blockNumber ≠ latestHeightCons db)
      (complete : (storedAbove db head).length = missingHeights db head)
      {payload : ExecutionPayload}
      (found : db.decidedBlocks.get (latestHeightCons db) = some payload)
      (number : payload.blockNumber = latestHeightCons db) :
      StartPath layer db head (.ofPayload payload)
  | synced (below : head.blockNumber ≠ latestHeightCons db)
      (gap : (storedAbove db head).length ≠ missingHeights db head)
      {stored : StoredCommitCertificate} {block : ExecutionBlock}
      (found : db.certificates.get (latestHeightCons db) = some stored)
      (reached : checkpointSync layer stored.certificate.valueId (latestHeightCons db) = some block) :
      StartPath layer db head block

section Replay

variable {engine : Engine} {layer : ExecutionLayer} {state after : Replay} {height : Height}
  {previous block : ExecutionBlock}

/-- **The frame of a replay**: the database stays, and what is finalized is stored. -/
structure ReplayFrame (state after : Replay) : Prop where
  database : after.world.db = state.world.db
  finalized : ∀ call ∈ after.finalizations, call ∈ state.finalizations ∨
    state.world.db.decidedBlocks.get call.height = some call.payload

theorem ReplayFrame.refl (state : Replay) : ReplayFrame state state :=
  ⟨rfl, fun _ made => .inl made⟩

theorem ReplayFrame.trans {middle : Replay} (first : ReplayFrame state middle)
    (second : ReplayFrame middle after) : ReplayFrame state after where
  database := second.database.trans first.database
  finalized call made := by
    rcases second.finalized call made with early | stored
    · exact first.finalized call early
    · exact .inr (first.database ▸ stored)

/-- **One replayed height.** A missing payload stops the replay before anything is done; one that is
bound to the block below is sent to the engine and becomes the next block; anything else is
fatal. -/
theorem replayBlock_cases (engine : Engine) (layer : ExecutionLayer) (state : Replay)
    (height : Height) (previous : ExecutionBlock) :
    ReplayFrame state (replayBlock engine layer state height previous).1 ∧
    ((state.world.db.decidedBlocks.get height = none ∧
        replayBlock engine layer state height previous = (state, .error (.payloadMissing height))) ∨
      (∃ payload answer, state.world.db.decidedBlocks.get height = some payload ∧
        Bound payload height (some previous) ∧
        (replayBlock engine layer state height previous).1.world =
          ⟨state.world.db, state.world.calls ++ [(payload, answer)]⟩ ∧
        (replayBlock engine layer state height previous).2 = .ok (.ofPayload payload)) ∨
      ∃ error, (replayBlock engine layer state height previous).2 = .error error ∧
        ∀ missing, error ≠ .payloadMissing missing) := by
  unfold replayBlock
  cases found : state.world.db.decidedBlocks.get height with
  | none => exact ⟨.refl state, .inl ⟨rfl, rfl⟩⟩
  | some payload =>
    dsimp only
    cases bound : checkPayloadBinding payload height (some previous) with
    | error error => exact ⟨.refl state, .inr (.inr ⟨_, rfl, fun missing same => by cases same⟩)⟩
    | ok passed =>
      simp only [Replay.ask]
      cases validatePayload (engine state.world.calls.length payload) with
      | none => exact ⟨⟨rfl, fun _ => .inl⟩, .inr (.inr ⟨_, rfl, fun missing same => by cases same⟩)⟩
      | some result =>
        cases result with
        | invalid reason =>
          exact ⟨⟨rfl, fun _ => .inl⟩, .inr (.inr ⟨_, rfl, fun missing same => by cases same⟩)⟩
        | valid =>
          refine ⟨⟨rfl, fun call made => ?_⟩, .inr ?_⟩
          · rcases List.mem_append.mp made with early | new
            · exact .inl early
            · rw [List.mem_singleton.mp new]
              exact .inr found
          · cases finalizes : layer.finalizes height with
            | true => exact .inl ⟨payload, _, rfl, bound, rfl, rfl⟩
            | false => exact .inr ⟨.notFinalized, rfl, fun missing same => by cases same⟩

theorem replayFrame_replayMissing (engine : Engine) (layer : ExecutionLayer) (tip : Height)
    (missing : ℕ) (state : Replay) (height : Height) (head : ExecutionBlock) :
    ReplayFrame state (replayMissing engine layer tip missing state height head).1 := by
  induction missing generalizing state height head with
  | zero => exact .refl state
  | succ missing ih =>
    have turn := (replayBlock_cases engine layer state height head).1
    unfold replayMissing
    generalize replayBlock engine layer state height head = result at turn ⊢
    obtain ⟨middle, outcome⟩ := result
    cases outcome with
    | ok block =>
      cases height.increment with
      | none => exact turn
      | some next => exact turn.trans (ih middle next block)
    | error error => cases error <;> exact turn

theorem replayFrame_handshakeAndReplay (engine : Engine) (layer : ExecutionLayer)
    (state : Replay) : ReplayFrame state (handshakeAndReplay engine layer state).1 := by
  unfold handshakeAndReplay
  cases layer.capable with
  | false => exact .refl state
  | true =>
    cases layer.latestBlock with
    | none => exact .refl state
    | some head =>
      dsimp only
      split_ifs
      · exact .refl state
      · cases head.blockNumber.increment with
        | none => exact .refl state
        | some height => exact replayFrame_replayMissing engine layer _ _ state height head

/-- What a replay of `missing` heights on top of `head` has done when it ends with `block`. -/
structure Replayed (layer : ExecutionLayer) (tip : Height) (missing : ℕ) (height : Height)
    (head block : ExecutionBlock) (state after : Replay) : Prop where
  database : after.world.db = state.world.db
  asked : after.world.calls.map Prod.fst =
    state.world.calls.map Prod.fst ++ storedFrom state.world.db missing height
  linked : ParentLinked head.blockHash (storedFrom state.world.db missing height)
  ended : ((storedFrom state.world.db missing height).length = missing ∧
      block.blockNumber.val = head.blockNumber.val + missing ∧
      (missing = 0 ∧ block = head ∨ 0 < missing ∧ ∃ payload, block = .ofPayload payload ∧
        state.world.db.decidedBlocks.get payload.blockNumber = some payload)) ∨
    (storedFrom state.world.db missing height).length < missing ∧
      ∃ stored, state.world.db.certificates.get tip = some stored ∧
        checkpointSync layer stored.certificate.valueId tip = some block

theorem replayMissing_replayed (engine : Engine) (layer : ExecutionLayer) (tip : Height)
    {missing : ℕ} {head : ExecutionBlock} (next : head.blockNumber.increment = some height)
    (ran : replayMissing engine layer tip missing state height head = (after, some block)) :
    Replayed layer tip missing height head block state after := by
  induction missing generalizing state height head with
  | zero =>
    obtain ⟨rfl, same⟩ := Prod.mk.inj ran
    rw [← Option.some.inj same]
    exact ⟨rfl, (List.append_nil _).symm, trivial, .inl ⟨rfl, rfl, .inl ⟨rfl, rfl⟩⟩⟩
  | succ missing ih =>
    unfold replayMissing at ran
    rcases (replayBlock_cases engine layer state height head).2 with
      ⟨found, turn⟩ | ⟨payload, answer, found, bound, world, turn⟩ | ⟨error, turn, fatal⟩
    · -- the payload of this height is gone: the rest is left to the checkpoint sync
      rw [turn] at ran
      obtain ⟨rfl, synced⟩ := Prod.mk.inj ran
      have stored : storedFrom state.world.db (missing + 1) height = [] := by
        simp only [storedFrom, found]
      refine ⟨rfl, ?_, ?_, .inr ⟨?_, Option.bind_eq_some_iff.mp synced⟩⟩
      · rw [stored, List.append_nil]
      · rw [stored]
        trivial
      · rw [stored]
        exact Nat.succ_pos _
    · generalize replayBlock engine layer state height head = result at world turn ran
      obtain ⟨middle, outcome⟩ := result
      obtain rfl : outcome = .ok (.ofPayload payload) := turn
      have calls := congrArg World.calls world
      have table := congrArg World.db world
      dsimp only at calls table
      obtain ⟨number, parent⟩ := bound_iff.mp bound
      cases following : height.increment with
      | none => simp [following] at ran
      | some higher =>
        simp only [following] at ran
        have stored : storedFrom state.world.db (missing + 1) height =
            payload :: storedFrom state.world.db missing higher := by
          simp only [storedFrom, found, following, Option.elim_some]
        have above : payload.blockNumber.val = head.blockNumber.val + 1 := by
          rw [number]
          exact Height.increment_eq_some.mp next
        obtain ⟨database, asked, linked, ended⟩ :=
          ih (show payload.blockNumber.increment = some higher by rw [number, following]) ran
        rw [table] at asked linked ended
        refine ⟨database.trans table, ?_, ?_, ?_⟩
        · rw [asked, stored, calls, List.map_append, List.append_assoc]
          rfl
        · rw [stored]
          exact ⟨parent head rfl next, linked⟩
        · rw [stored, List.length_cons]
          rcases ended with ⟨complete, position, last⟩ | ⟨gap, synced⟩
          · have position : block.blockNumber.val = payload.blockNumber.val + missing := position
            refine .inl ⟨by rw [complete], by omega, .inr ⟨Nat.succ_pos _, ?_⟩⟩
            rcases last with ⟨-, rfl⟩ | ⟨-, later⟩
            · exact ⟨payload, rfl, number ▸ found⟩
            · exact later
          · exact .inr ⟨Nat.succ_lt_succ gap, synced⟩
    · generalize replayBlock engine layer state height head = result at turn ran
      obtain ⟨middle, outcome⟩ := result
      obtain rfl : outcome = .error error := turn
      cases error with
      | payloadMissing absent => exact absurd rfl (fatal absent)
      | _ => cases (Prod.mk.inj ran).2

end Replay

/-! ### The handshake -/

section Handshake

variable (engine : Engine) (layer : ExecutionLayer) (state : Replay)

def askedPayloads (replay : Replay) : List ExecutionPayload := replay.world.calls.map Prod.fst

variable {engine layer state} {result : HandshakeResult}

/-- **What a successful handshake has done**, and the block it ends with. -/
theorem handshakeAndReplay_path
    (succeeds : (handshakeAndReplay engine layer state).2 = some result) :
    ∃ head, layer.latestBlock = some head ∧ head.blockNumber ≤ latestHeightCons state.world.db ∧
      askedPayloads (handshakeAndReplay engine layer state).1 =
        askedPayloads state ++ storedAbove state.world.db head ∧
      ParentLinked head.blockHash (storedAbove state.world.db head) ∧
      StartPath layer state.world.db head result.previousBlock ∧
      result.previousBlock.blockNumber.increment = some result.nextHeight := by
  unfold handshakeAndReplay at succeeds ⊢
  cases capable : layer.capable with
  | false => simp [capable] at succeeds
  | true =>
    cases present : layer.latestBlock with
    | none => simp [capable, present] at succeeds
    | some head =>
      simp only [capable, present] at succeeds ⊢
      by_cases ahead : state.world.db.maxHeight.getD 0 < head.blockNumber
      · simp [if_pos ahead] at succeeds
      · rw [if_neg ahead] at succeeds ⊢
        cases next : head.blockNumber.increment with
        | none => simp [next] at succeeds
        | some height =>
          simp only [next, Option.bind_eq_bind, Option.bind_eq_some_iff] at succeeds ⊢
          obtain ⟨previous, last, nextHeight, incremented, made⟩ := succeeds
          obtain rfl := Option.some.inj made
          have above : storedAbove state.world.db head =
              storedFrom state.world.db (missingHeights state.world.db head) height := by
            rw [storedAbove, next, Option.elim_some]
          have level : head.blockNumber.val ≤ (latestHeightCons state.world.db).val :=
            Height.le_def.mp (not_lt.mp ahead)
          have ran := replayMissing_replayed engine layer (latestHeightCons state.world.db) next
            (Prod.ext rfl last)
          refine ⟨head, rfl, not_lt.mp ahead, ?_, ?_, ?_, incremented⟩
          · rw [above]
            exact ran.asked
          · rw [above]
            exact ran.linked
          · rcases ran.ended with ⟨complete, position, ⟨none, rfl⟩ | ⟨some, payload, rfl, found⟩⟩ |
              ⟨gap, stored, certified, synced⟩
            · exact .nothing (Height.ext (le_antisymm level (Nat.sub_eq_zero_iff_le.mp none)))
            · have number : payload.blockNumber = latestHeightCons state.world.db :=
                Height.ext (position.trans (Nat.add_sub_cancel' level))
              refine .replayed (fun same => ?_) (above ▸ complete) (number ▸ found) number
              exact absurd some (by rw [same]; exact (Nat.sub_self _).not_gt)
            · refine .synced (fun same => ?_) (above ▸ gap.ne) certified synced
              exact absurd (Nat.zero_lt_of_lt gap) (by rw [same]; exact (Nat.sub_self _).not_gt)

/-- **Consensus continues above the certified tip.** -/
structure StartsAtTip (engine : Engine) (layer : ExecutionLayer) (state : Replay)
    (result : HandshakeResult) : Prop where
  /-- The execution layer was not ahead, and what the engine was asked is the stored payloads above
  its head, in order and linked. -/
  replayed : ∃ head, layer.latestBlock = some head ∧
    head.blockNumber ≤ latestHeightCons state.world.db ∧
    askedPayloads (handshakeAndReplay engine layer state).1 =
      askedPayloads state ++ storedAbove state.world.db head ∧
    ParentLinked head.blockHash (storedAbove state.world.db head)
  nextHeight : (latestHeightCons state.world.db).increment = some result.nextHeight
  position : result.previousBlock.blockNumber = latestHeightCons state.world.db
  /-- The previous block is the value of the latest certificate. -/
  value : ∀ stored, state.world.db.certificates.get (latestHeightCons state.world.db) = some stored →
    result.previousBlock.blockHash = stored.certificate.valueId

/-- The block a query of a number is answered with first; `none` is no answer, an error or no
block. -/
def firstAnswer (answers : List (Option (Option ExecutionBlock))) : Option ExecutionBlock :=
  answers.head?.join.join

/-- **The answers to a checkpoint sync are about its target.** A layer that knows the target has to
answer the query of its number with it; one that has to sync is held to the hash by the polling
loop, so only the number of its first block is asked for. -/
def SyncAgrees (layer : ExecutionLayer) (target : BlockHash) (height : Height) : Prop :=
  (layer.forkchoice target = some .valid → ∀ block ∈ firstAnswer (layer.blockByNumber height),
      block.blockNumber = height ∧ block.blockHash = target) ∧
    (layer.forkchoice target = some .syncing →
      ∀ block ∈ firstAnswer ((layer.blockByNumber height).dropWhile (· = some none)),
        block.blockNumber = height)
  deriving Decidable

theorem pollUntilSynced_eq_some {target : BlockHash} {block : ExecutionBlock}
    {answers : List (Option (Option ExecutionBlock))}
    (reached : pollUntilSynced target answers = some block) :
    firstAnswer (answers.dropWhile (· = some none)) = some block ∧ block.blockHash = target := by
  fun_induction pollUntilSynced target answers with
  | case1 | case2 => cases reached
  | case3 rest ih => simpa [List.dropWhile_cons] using ih reached
  | case4 rest found hash =>
    obtain rfl := Option.some.inj reached
    exact ⟨by simp [firstAnswer], hash⟩
  | case5 => cases reached

theorem syncAgrees_iff {target : BlockHash} {height : Height} {block : ExecutionBlock}
    (reached : checkpointSync layer target height = some block) :
    SyncAgrees layer target height ↔ block.blockNumber = height ∧ block.blockHash = target := by
  unfold checkpointSync at reached
  unfold SyncAgrees
  split at reached
  case h_1 syncing =>
    obtain ⟨first, hash⟩ := pollUntilSynced_eq_some reached
    simp [syncing, first, hash]
  case h_2 valid => simp [valid, firstAnswer, reached]
  case h_3 => cases reached

/-- **The block a start ends with is the certified one**: the head of an execution layer that lacks
nothing, the payload of the tip if all are stored, and what the layer answers to a checkpoint sync
if one is missing. -/
def TipAgrees (layer : ExecutionLayer) (db : AppDb) : Prop :=
  ∀ head ∈ layer.latestBlock, ∀ stored ∈ db.certificates.get (latestHeightCons db),
    (head.blockNumber = latestHeightCons db → head.blockHash = stored.certificate.valueId) ∧
      (head.blockNumber ≠ latestHeightCons db →
        (storedAbove db head).length = missingHeights db head →
        ∀ payload ∈ db.decidedBlocks.get (latestHeightCons db),
          payload.blockHash = stored.certificate.valueId) ∧
      (head.blockNumber ≠ latestHeightCons db →
        (storedAbove db head).length ≠ missingHeights db head →
        SyncAgrees layer stored.certificate.valueId (latestHeightCons db))
  deriving Decidable

theorem position_of_path {db : AppDb} {head block : ExecutionBlock}
    (path : StartPath layer db head block)
    (numbered : ∀ stored ∈ db.certificates.get (latestHeightCons db),
      ∀ reached ∈ checkpointSync layer stored.certificate.valueId (latestHeightCons db),
        reached.blockNumber = latestHeightCons db) :
    block.blockNumber = latestHeightCons db := by
  cases path with
  | nothing level => exact level
  | replayed below complete found number => exact number
  | synced below gap found reached => exact numbered _ found _ reached

/-- **A start ends at the certified tip exactly when what its path reads names the certified
block.** -/
theorem starts_at_tip_iff (engine : Engine) (layer : ExecutionLayer) (state : Replay)
    (result : HandshakeResult)
    (succeeds : (handshakeAndReplay engine layer state).2 = some result) :
    StartsAtTip engine layer state result ↔ TipAgrees layer state.world.db := by
  obtain ⟨head, present, level, asked, linked, path, next⟩ := handshakeAndReplay_path succeeds
  constructor
  · intro starts other same stored found
    obtain rfl : head = other := Option.some.inj (present.symm.trans same)
    have value := starts.value stored found
    have position := starts.position
    generalize result.previousBlock = block at path value position
    cases path with
    | nothing level =>
      exact ⟨fun _ => value, fun below => absurd level below, fun below => absurd level below⟩
    | replayed below complete held number =>
      refine ⟨fun level => absurd level below, fun _ _ payload there => ?_,
        fun _ gap => absurd complete gap⟩
      rw [← Option.some.inj (held.symm.trans there)]
      exact value
    | synced below gap certified reached =>
      obtain rfl := Option.some.inj (certified.symm.trans found)
      exact ⟨fun level => absurd level below, fun _ complete => absurd complete gap,
        fun _ _ => (syncAgrees_iff reached).mpr ⟨position, value⟩⟩
  · intro agrees
    have ends : result.previousBlock.blockNumber = latestHeightCons state.world.db ∧
        ∀ stored, state.world.db.certificates.get (latestHeightCons state.world.db) = some stored →
          result.previousBlock.blockHash = stored.certificate.valueId := by
      have agreed := agrees head present
      generalize result.previousBlock = block at path
      cases path with
      | nothing level => exact ⟨level, fun stored found => (agreed stored found).1 level⟩
      | replayed below complete held number =>
        exact ⟨number, fun stored found => (agreed stored found).2.1 below complete _ held⟩
      | synced below gap certified reached =>
        obtain ⟨number, hash⟩ := (syncAgrees_iff reached).mp ((agreed _ certified).2.2 below gap)
        refine ⟨number, fun stored found => ?_⟩
        rw [← Option.some.inj (certified.symm.trans found)]
        exact hash
    refine ⟨⟨head, present, level, asked, linked⟩, ?_, ends.1, ends.2⟩
    rw [← ends.1]
    exact next

end Handshake

section Samples

def layerAt (head : ExecutionBlock) : ExecutionLayer where
  capable := true
  latestBlock := some head
  finalizes := fun _ => true
  forkchoice := fun _ => none
  blockByNumber := fun _ => []
  validatorSet := fun _ => some [⟨3, 7, 10⟩]

/-- The store of a node that has decided height 1. -/
def oneHeightReplay : Replay where
  world :=
    { db := Db.insertDecidedBlock (∅ : AppDb) 1 ⟨⟨1, .some 0, 9, []⟩, .minimal, some 3⟩ genuinePayload
      calls := [] }
  finalizations := []

/-- The missing height is replayed on top of genesis. -/
theorem starts_at_tip_iff_replayed :
    askedPayloads (handshakeAndReplay (fun _ _ => .valid) (layerAt ⟨5, 0, 0, 0⟩)
        oneHeightReplay).1 = [genuinePayload] ∧
      StartsAtTip (fun _ _ => .valid) (layerAt ⟨5, 0, 0, 0⟩) oneHeightReplay
        ⟨.ofPayload genuinePayload, 1, 2⟩ :=
  ⟨by decide +kernel, (starts_at_tip_iff _ _ _ _ (by decide +kernel)).mpr (by decide +kernel)⟩

/-- **Nothing to replay and another block**: the head of the execution layer has the height of the
latest certificate and not its hash, and the handshake takes it as the previous block. -/
theorem uncertified_head_is_taken :
    (handshakeAndReplay (fun _ _ => .valid) (layerAt ⟨77, 1, 5, 1000⟩) oneHeightReplay).2 =
        some ⟨⟨77, 1, 5, 1000⟩, 1, 2⟩ ∧
      ¬ StartsAtTip (fun _ _ => .valid) (layerAt ⟨77, 1, 5, 1000⟩) oneHeightReplay
        ⟨⟨77, 1, 5, 1000⟩, 1, 2⟩ := by
  refine ⟨by decide +kernel, fun starts => ?_⟩
  have value : (77 : BlockHash) = 9 :=
    starts.value ⟨⟨1, .some 0, 9, []⟩, .minimal, some 3⟩ (by decide +kernel)
  exact absurd value (by decide)

end Samples

end ArcNode.App
