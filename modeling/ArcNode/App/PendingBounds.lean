/-
**The table of pending parts stays small and near.**

Proposals for later rounds and heights wait in a table of at most `max_pending_proposals` rows. Four
places keep it bounded: the window check of the handler, the insertion, the clean-up of a commit,
and the trim at startup, which keeps the lowest keys of the window (**`trimPending_spec`**). An
input removes rows or stores one proposal (`PendingChange`), so the table is bounded along every run
in which no proposal of a decided height completes before that height is finalized
(**`pending_table_bounded`**). One that does is stored after the clean-up and stays
(**`stale_row_outlives_its_height`**).
-/

import ArcNode.App.Authenticity
import ArcNode.App.HeightRestart

namespace ArcNode.App

open ArcNode.Lib ArcNode.Types ArcNode.Store

/-! ### The trim at startup -/

variable (table : Table BlockKey ProposalParts)

variable {key : BlockKey}

section Trim

variable {db after : AppDb} {limit : ℕ} {current : Height} {removed : List BlockKey}

/-- The keys of the admissible heights, in order. -/
def withinRange (current maxAllowed : Height) : List BlockKey :=
  table.keys.filter fun key => current ≤ key.height ∧ key.height ≤ maxAllowed

/-- The keys to remove: stale ones, ones too far ahead, and those beyond the limit. -/
def keysToRemove (limit : ℕ) (current maxAllowed : Height) : List BlockKey :=
  let stale := table.keys.filter fun key => key.height < current
  let tooFar := table.keys.filter fun key => ¬ key.height < current ∧ ¬ key.height ≤ maxAllowed
  stale ++ tooFar ++ (withinRange table current maxAllowed).drop limit

/-- `enforce_pending_proposals_limit`, with the keys it reports; `none` is the panic of a height
that overflows. -/
def trimPending (db : AppDb) (limit : ℕ) (current : Height) : Option (AppDb × List BlockKey) := do
  let maxAllowed ← current.incrementBy (limit - 1)
  let removed := keysToRemove db.pendingProposalParts limit current maxAllowed
  some ({ db with pendingProposalParts := removed.foldl Table.remove db.pendingProposalParts },
    removed)

theorem get_foldl_remove {K V : Type*} [LinearOrder K] (table : Table K V) (keys : List K) (key : K) :
    (keys.foldl Table.remove table).get key = if key ∈ keys then none else table.get key := by
  induction keys generalizing table with
  | nil => simp
  | cons first rest ih =>
    rw [List.foldl_cons, ih, Table.get_remove]
    by_cases later : key ∈ rest
    · simp [later]
    · by_cases here : key = first
      · simp [here]
      · simp [here, later]

/-- A key of the table is removed exactly if it is not among the first ones of the window. -/
theorem mem_keysToRemove {table : Table BlockKey ProposalParts} {maxAllowed : Height} :
    key ∈ keysToRemove table limit current maxAllowed ↔
      key ∈ table.keys ∧ key ∉ (withinRange table current maxAllowed).take limit := by
  have distinct : (withinRange table current maxAllowed).Nodup := table.keys_nodup.filter _
  have parts : key ∈ withinRange table current maxAllowed ↔
      key ∈ (withinRange table current maxAllowed).take limit ∨
        key ∈ (withinRange table current maxAllowed).drop limit := by
    rw [← List.mem_append, List.take_append_drop]
  have apart : key ∈ (withinRange table current maxAllowed).take limit →
      key ∉ (withinRange table current maxAllowed).drop limit := by
    rw [← List.take_append_drop limit (withinRange table current maxAllowed)] at distinct
    exact fun front back => (List.nodup_append.mp distinct).2.2 key front key back rfl
  have window : key ∈ withinRange table current maxAllowed ↔
      key ∈ table.keys ∧ current ≤ key.height ∧ key.height ≤ maxAllowed := by
    simp [withinRange]
  unfold keysToRemove
  simp only [List.mem_append, List.mem_filter, decide_eq_true_eq]
  rw [← not_lt] at window
  tauto

theorem trimPending_table (db : AppDb) (limit : ℕ) (current : Height) :
    (trimPending db limit current).map Prod.fst =
      enforcePendingProposalsLimit db limit current := by
  unfold trimPending enforcePendingProposalsLimit
  cases current.incrementBy (limit - 1) with
  | none => rfl
  | some maxAllowed =>
    refine congrArg some (congrArg (fun table => { db with pendingProposalParts := table }) ?_)
    refine Table.ext_get fun key => ?_
    rw [get_foldl_remove, Table.get_retain]
    cases found : db.pendingProposalParts.get key with
    | none => simp
    | some parts =>
      have live : key ∈ db.pendingProposalParts.keys := by
        rw [Table.mem_keys, found]
        rfl
      simp only [mem_keysToRemove, live, true_and]
      by_cases kept : key ∈ (withinRange db.pendingProposalParts current maxAllowed).take limit
      · rw [if_neg (not_not.mpr kept)]
        exact (Option.filter_eq_some_iff.mpr ⟨rfl, by simpa [withinRange] using kept⟩).symm
      · rw [if_pos kept]
        exact (Option.filter_eq_none_iff.mpr fun _ _ => by simpa [withinRange] using kept).symm

theorem sorted_keys {K V : Type*} [LinearOrder K] (table : Table K V) :
    table.keys.Pairwise (· < ·) :=
  List.pairwise_map.mpr table.sorted

theorem keys_eq_of_mem_iff {K V : Type*} [LinearOrder K] {table : Table K V} {keys : List K}
    (sorted : keys.Pairwise (· < ·)) (same : ∀ key, key ∈ table.keys ↔ key ∈ keys) :
    table.keys = keys :=
  (sorted_keys table).eq_of_mem_iff sorted same

/-- **What the trim does**: it keeps the lowest keys of the window, at most `limit`, removes and
reports each other key once, and trimming again changes and reports nothing. -/
structure TrimSpec (db : AppDb) (limit : ℕ) (current : Height) (after : AppDb)
    (removed : List BlockKey) : Prop where
  kept : after.pendingProposalParts.keys = (db.pendingProposalParts.keys.filter fun key =>
    current ≤ key.height ∧ key.height.val ≤ current.val + (limit - 1)).take limit
  lowest : ∀ key ∈ after.pendingProposalParts.keys, ∀ other ∈ db.pendingProposalParts.keys,
    current ≤ other.height → other.height.val ≤ current.val + (limit - 1) →
    other ∉ after.pendingProposalParts.keys → key < other
  rows : ∀ key ∈ after.pendingProposalParts.keys,
    after.pendingProposalParts.get key = db.pendingProposalParts.get key
  reported : removed.Nodup ∧ ∀ key, key ∈ removed ↔
    key ∈ db.pendingProposalParts.keys ∧ key ∉ after.pendingProposalParts.keys
  again : trimPending after limit current = some (after, [])

theorem nodup_keysToRemove (maxAllowed : Height) :
    (keysToRemove table limit current maxAllowed).Nodup := by
  have keys := table.keys_nodup
  unfold keysToRemove
  refine List.nodup_append.mpr ⟨List.nodup_append.mpr ⟨keys.filter _, keys.filter _, ?_⟩,
    (List.drop_sublist _ _).nodup (keys.filter _), ?_⟩
  · rintro first stale second far rfl
    simp only [List.mem_filter, decide_eq_true_eq] at stale far
    exact far.2.1 stale.2
  · rintro first outside second inside rfl
    have within := List.mem_of_mem_drop inside
    simp only [withinRange, List.mem_append, List.mem_filter, decide_eq_true_eq] at outside within
    rcases outside with ⟨_, stale⟩ | ⟨_, _, far⟩
    · exact absurd within.2.1 (not_le.mpr stale)
    · exact far within.2.2

theorem keysToRemove_eq_nil {table : Table BlockKey ProposalParts} {maxAllowed : Height}
    (inside : ∀ key ∈ table.keys, current ≤ key.height ∧ key.height ≤ maxAllowed)
    (small : table.len ≤ limit) : keysToRemove table limit current maxAllowed = [] := by
  have whole : withinRange table current maxAllowed = table.keys :=
    List.filter_eq_self.mpr fun key member => decide_eq_true (inside key member)
  refine List.eq_nil_iff_forall_not_mem.mpr fun key member => ?_
  obtain ⟨live, gone⟩ := mem_keysToRemove.mp member
  rw [whole, List.take_of_length_le (by rwa [← Table.len_eq_length_keys])] at gone
  exact gone live

theorem keys_trimmed {table : Table BlockKey ProposalParts} {maxAllowed : Height} :
    ((keysToRemove table limit current maxAllowed).foldl Table.remove table).keys =
      (withinRange table current maxAllowed).take limit := by
  refine keys_eq_of_mem_iff ((sorted_keys table).sublist
    ((List.take_sublist _ _).trans List.filter_sublist)) fun key => ?_
  have live : key ∈ (withinRange table current maxAllowed).take limit → key ∈ table.keys :=
    fun member => List.mem_of_mem_filter (List.mem_of_mem_take member)
  rw [Table.mem_keys, get_foldl_remove]
  split_ifs with gone
  · simp [(mem_keysToRemove.mp gone).2]
  · rw [mem_keysToRemove] at gone
    rw [← Table.mem_keys]
    tauto

theorem keysToRemove_trimmed {table : Table BlockKey ProposalParts} {maxAllowed : Height} :
    keysToRemove ((keysToRemove table limit current maxAllowed).foldl Table.remove table) limit
      current maxAllowed = [] := by
  refine keysToRemove_eq_nil (fun key member => ?_) ?_
  · rw [keys_trimmed] at member
    exact of_decide_eq_true (List.mem_filter.mp (List.mem_of_mem_take member)).2
  · rw [Table.len_eq_length_keys, keys_trimmed, List.length_take]
    exact min_le_left _ _

theorem trimPending_spec (trimmed : trimPending db limit current = some (after, removed)) :
    TrimSpec db limit current after removed := by
  unfold trimPending at trimmed
  rw [Option.bind_eq_bind, Option.bind_eq_some_iff] at trimmed
  obtain ⟨maxAllowed, bound, same⟩ := trimmed
  rw [Option.some.injEq, Prod.mk.injEq] at same
  obtain ⟨rfl, rfl⟩ := same
  have highest := incrementBy_eq_some.mp bound
  -- the window of the statement is the one the code filters
  have window : (db.pendingProposalParts.keys.filter fun key =>
      current ≤ key.height ∧ key.height.val ≤ current.val + (limit - 1)) =
        withinRange db.pendingProposalParts current maxAllowed := by
    unfold withinRange
    refine List.filter_congr fun key _ => decide_eq_decide.mpr (and_congr_right fun _ => ?_)
    rw [Height.le_def, highest]
  have sorted : (withinRange db.pendingProposalParts current maxAllowed).Pairwise (· < ·) :=
    (sorted_keys _).sublist List.filter_sublist
  refine ⟨by rw [window]; exact keys_trimmed, ?_, ?_, ⟨nodup_keysToRemove _ _, fun key => ?_⟩, ?_⟩
  · intro key here other live low high away
    dsimp only at here away
    rw [keys_trimmed] at here away
    have inside : other ∈ withinRange db.pendingProposalParts current maxAllowed := by
      rw [← window]
      exact List.mem_filter.mpr ⟨live, decide_eq_true ⟨low, high⟩⟩
    rw [← List.take_append_drop limit (withinRange _ _ _)] at inside sorted
    have back := (List.mem_append.mp inside).resolve_left away
    exact (List.pairwise_append.mp sorted).2.2 key here other back
  · intro key here
    dsimp only at here ⊢
    rw [keys_trimmed] at here
    rw [get_foldl_remove, if_neg fun gone => (mem_keysToRemove.mp gone).2 here]
  · dsimp only
    rw [keys_trimmed]
    exact mem_keysToRemove
  · unfold trimPending
    rw [Option.bind_eq_bind, bound, Option.bind_some]
    dsimp only
    rw [keysToRemove_trimmed]
    rfl

end Trim

/-! ### What the key of a proposal says -/

section Key

variable {E : Externals} {first second : ProposalParts}

/-- The bytes the key of a proposal is the digest of. -/
def keyPreimage (E : Externals) (parts : ProposalParts) : List Byte :=
  beBytes 32 (parts.hash E.keccak).val ++ (beBytes 20 parts.proposer.val ++
    (parts.init.polRound.toBeBytes ++ parts.signature))

/-- The bytes of a proposal that its signature covers. -/
def signedPreimage (parts : ProposalParts) : List Byte :=
  ProposalParts.preimage parts.height parts.round parts.bytes

/-- Two proposals with one key by a collision of Keccak. -/
def KeyCollision (E : Externals) (first second : ProposalParts) : Prop :=
  (keyPreimage E first ≠ keyPreimage E second ∧
      E.keccak (keyPreimage E first) = E.keccak (keyPreimage E second)) ∨
    (signedPreimage first ≠ signedPreimage second ∧
      E.keccak (signedPreimage first) = E.keccak (signedPreimage second))
  deriving Decidable

/-- **One key, one proposal**: proposals with the same key agree in everything but how their data is
cut into parts, unless they are a collision. -/
theorem pendingKey_cases (same : first.pendingKey E.keccak = second.pendingKey E.keccak) :
    KeyCollision E first second ∨
      first.init = second.init ∧ first.bytes = second.bytes ∧ first.signature = second.signature := by
  by_cases outer : keyPreimage E first = keyPreimage E second
  · obtain ⟨hashes, rest⟩ := beBytes_append_inj (lt_of_lt_of_eq (Fin.isLt _) (by norm_num))
      (lt_of_lt_of_eq (Fin.isLt _) (by norm_num)) outer
    obtain ⟨proposers, rest⟩ := beBytes_append_inj (lt_of_lt_of_eq (Fin.isLt _) (by norm_num))
      (lt_of_lt_of_eq (Fin.isLt _) (by norm_num)) rest
    obtain ⟨polRounds, signatures⟩ := Round.toBeBytes_append_inj rest
    by_cases inner : signedPreimage first = signedPreimage second
    · obtain ⟨heights, rounds, bytes⟩ := preimage_injective inner
      refine .inr ⟨?_, bytes, signatures⟩
      obtain ⟨⟨height, round, polRound, proposer⟩, data, signature⟩ := first
      obtain ⟨⟨height', round', polRound', proposer'⟩, data', signature'⟩ := second
      obtain rfl : height = height' := heights
      obtain rfl : round = round' := rounds
      obtain rfl : polRound = polRound' := polRounds
      obtain rfl : proposer = proposer' := Fin.ext proposers
      rfl
    · exact .inl (.inr ⟨inner, Fin.ext hashes⟩)
  · exact .inl (.inl ⟨outer, congrArg BlockKey.hash same⟩)

end Key

/-! ### What one input does to the table -/

/-- **A change of the table**: rows go, or one proposal that arrived inside the window is stored
while there is room. -/
inductive PendingChange (E : Externals) (limit : ℕ) (current : Height)
    (arrived : Option ProposalParts) (before after : Table BlockKey ProposalParts) : Prop
  | fewer (old : ∀ key parts, after.get key = some parts → before.get key = some parts)
  | stores (parts : ProposalParts) (arrives : arrived = some parts) (room : before.len < limit)
      (low : current ≤ parts.height) (high : parts.height.val ≤ current.val + (limit - 1))
      (same : after = before.insert (parts.pendingKey E.keccak) parts)

section Change

variable {E : Externals} {engine : Engine} {signBytes : BlockHash → Option Signature}
  {config : NodeConfig} {ctx : HandlerContext} {db after : AppDb} {parts : ProposalParts}

theorem maybeStorePendingProposal_again {kept : Bool}
    (stored : maybeStorePendingProposal E ctx db parts = some (after, kept))
    (present : db.pendingProposalParts.get (parts.pendingKey E.keccak) = some parts) : after = db := by
  rcases maybeStorePendingProposal_cases stored with ⟨-, rfl⟩ | ⟨-, -, -, rfl⟩
  · rfl
  · have same : db.pendingProposalParts.insert (parts.pendingKey E.keccak) parts =
        db.pendingProposalParts := by
      refine Table.ext_get fun key => ?_
      rw [Table.get_insert]
      split_ifs with here
      · rw [here, present]
      · rfl
    rw [same]

theorem PendingChange.refl {limit : ℕ} {current : Height} {arrived : Option ProposalParts}
    {table : Table BlockKey ProposalParts} : PendingChange E limit current arrived table table :=
  .fewer fun _ _ => id

theorem PendingChange.of_frame {limit : ℕ} {current : Height} {arrived : Option ProposalParts}
    (frame : IngestFrame E none db after) :
    PendingChange E limit current arrived db.pendingProposalParts after.pendingProposalParts :=
  .fewer fun key parts found => (frame.pending key parts found).resolve_right fun new => by
    cases new.1

theorem pendingChange_processProposalParts {outcome : PartsOutcome}
    (processed : processProposalParts E ctx db parts = some (after, outcome)) :
    PendingChange E ctx.maxPendingProposals ctx.currentHeight (some parts) db.pendingProposalParts
      after.pendingProposalParts := by
  rcases processProposalParts_cases processed with ⟨invalid, rfl⟩ | ⟨low, kept, stored⟩
  · exact .refl
  rcases maybeStorePendingProposal_cases stored with ⟨-, rfl⟩ | ⟨-, room, high, rfl⟩
  · exact .refl
  · exact .stores parts rfl room low high rfl

theorem pendingChange_handleCompleteParts (world : World) :
    PendingChange E ctx.maxPendingProposals ctx.currentHeight (some parts)
      world.db.pendingProposalParts
      (handleCompleteParts E engine ctx world parts).1.db.pendingProposalParts := by
  unfold handleCompleteParts
  cases processed : processProposalParts E ctx world.db parts with
  | none => exact .refl
  | some result =>
    obtain ⟨after, outcome⟩ := result
    have change := pendingChange_processProposalParts processed
    cases outcome with
    | block found =>
      obtain ⟨-, -, same, -⟩ := processProposalParts_eq_block_iff.mp processed
      dsimp only
      rw [same]
      exact .of_frame storeLiveBlock_settled.1.frame
    | _ => exact change

theorem pendingChange_onReceivedProposalPart (streams : PartStreamsMap) (world : World)
    (delivery : Delivery) :
    PendingChange E ctx.maxPendingProposals ctx.currentHeight (receive streams delivery).2.completed
      world.db.pendingProposalParts
      (onReceivedProposalPart E engine ctx streams world delivery).2.1.db.pendingProposalParts := by
  unfold onReceivedProposalPart
  generalize receive streams delivery = result
  obtain ⟨inserted, outcome⟩ := result
  cases outcome with
  | complete parts => exact pendingChange_handleCompleteParts world
  | _ => exact .refl

/-- **A quiet input**: rows go, or the proposal it completes is stored. -/
theorem pendingChange_quiet {node : Node} {state : State} (running : node.state = some state)
    {input : NodeInput} (quiet : input.quiet = true) :
    PendingChange E config.maxPendingProposals state.currentHeight (input.arrived state)
      node.world.db.pendingProposalParts
      (runningStep E engine signBytes config node state input).1.world.db.pendingProposalParts := by
  have frame : QuietFrame E node state input
      (runningStep E engine signBytes config node state input).1 := quiet_frame running quiet
  cases input with
  | receivedProposalPart delivery localTime =>
    exact @pendingChange_onReceivedProposalPart E engine (state.context config localTime)
      state.streams node.world delivery
  | _ => exact .of_frame frame.tables

end Change

/-! ### The invariant -/

/-- The table is within the limit and the window of a running process. -/
structure PendingBounds (limit : ℕ) (current : Height) (table : Table BlockKey ProposalParts) :
    Prop where
  len : table.len ≤ limit
  window : ∀ key ∈ table.keys, current ≤ key.height ∧ key.height.val ≤ current.val + (limit - 1)

/-- The bounds of a running process; once its height is decided, no row is left at it. -/
structure PendingInv (limit : ℕ) (state : State) (table : Table BlockKey ProposalParts) : Prop where
  bounds : PendingBounds limit state.currentHeight table
  above : ∀ info, state.decision = some (.success info) →
    info.nextHeight.val = state.currentHeight.val + 1 ∧
      ∀ key ∈ table.keys, state.currentHeight < key.height

/-- Every row is stored under the key of its proposal. -/
def KeyedRows (E : Externals) (table : Table BlockKey ProposalParts) : Prop :=
  ∀ key parts, table.get key = some parts → key = parts.pendingKey E.keccak

section Invariant

variable {E : Externals} {engine : Engine} {signBytes : BlockHash → Option Signature}
  {config : NodeConfig} {node : Node} {state later : State} {limit : ℕ} {current : Height}
  {arrived : Option ProposalParts} {before after : Table BlockKey ProposalParts}

theorem mem_keys_of_get
    (old : ∀ key parts, after.get key = some parts → before.get key = some parts)
    (member : key ∈ after.keys) : key ∈ before.keys := by
  obtain ⟨parts, found⟩ := Option.isSome_iff_exists.mp (Table.mem_keys.mp member)
  exact Table.mem_keys.mpr (Option.isSome_iff_exists.mpr ⟨parts, old key parts found⟩)

theorem len_le_of_get (old : ∀ key parts, after.get key = some parts → before.get key = some parts) :
    after.len ≤ before.len := by
  rw [Table.len_eq_length_keys, Table.len_eq_length_keys]
  exact (List.subperm_of_subset after.keys_nodup fun key => mem_keys_of_get old).length_le

theorem PendingBounds.fewer (bounds : PendingBounds limit current before)
    (old : ∀ key parts, after.get key = some parts → before.get key = some parts) :
    PendingBounds limit current after :=
  ⟨(len_le_of_get old).trans bounds.len, fun key member => bounds.window key (mem_keys_of_get old member)⟩

theorem PendingInv.fewer (inv : PendingInv limit state before)
    (old : ∀ key parts, after.get key = some parts → before.get key = some parts) :
    PendingInv limit state after :=
  ⟨inv.bounds.fewer old, fun info success => ⟨(inv.above info success).1, fun key member =>
    (inv.above info success).2 key (mem_keys_of_get old member)⟩⟩

theorem PendingInv.move (inv : PendingInv limit state before) (same : SamePosition state later) :
    PendingInv limit later before where
  bounds := same.currentHeight ▸ inv.bounds
  above := by
    rw [same.currentHeight, same.decision]
    exact inv.above

theorem len_insert_le (key : BlockKey)
    (parts : ProposalParts) : (table.insert key parts).len ≤ table.len + 1 := by
  have subset : (table.insert key parts).keys ⊆ key :: table.keys := fun other member =>
    List.mem_cons.mpr (Table.mem_keys_insert.mp member)
  rw [Table.len_eq_length_keys, Table.len_eq_length_keys]
  exact (List.subperm_of_subset (Table.keys_nodup _) subset).length_le

theorem PendingInv.change (inv : PendingInv limit state before)
    (change : PendingChange E limit state.currentHeight arrived before after)
    (orderly : ∀ parts ∈ arrived, ∀ info, state.decision = some (.success info) →
      parts.height ≠ state.currentHeight) : PendingInv limit state after := by
  cases change with
  | fewer old => exact inv.fewer old
  | stores parts arrives room low high same =>
    have stored : ∀ key ∈ after.keys, key = parts.pendingKey E.keccak ∨ key ∈ before.keys := by
      rw [same]
      exact fun key member => Table.mem_keys_insert.mp member
    refine ⟨⟨?_, fun key member => ?_⟩, fun info success => ⟨(inv.above info success).1, ?_⟩⟩
    · rw [same]
      exact (len_insert_le _ _ _).trans room
    · rcases stored key member with rfl | old
      · exact ⟨low, high⟩
      · exact inv.bounds.window key old
    · intro key member
      rcases stored key member with rfl | old
      · exact lt_of_le_of_ne low (Ne.symm (orderly parts arrives info success))
      · exact (inv.above info success).2 key old

theorem get_of_cleaned {db : AppDb} {height : Height} {parts : ProposalParts}
    (found : (db.cleanStaleConsensusData height).pendingProposalParts.get key = some parts) :
    db.pendingProposalParts.get key = some parts :=
  Table.get_of_get_retain found

theorem lt_of_cleaned {db : AppDb} {height : Height}
    (member : key ∈ (db.cleanStaleConsensusData height).pendingProposalParts.keys) :
    height < key.height :=
  Db.lt_of_mem_cleanStaleConsensusData (.inr member)

variable {certificate : CommitCertificate}

theorem pending_decided {answers : DecidedAnswers}
    (present : (decided config node state certificate answers).state = some later)
    {info : NextHeightInfo} (success : later.decision = some (.success info)) :
    (decided config node state certificate answers).world.db.pendingProposalParts =
      (node.world.db.cleanStaleConsensusData certificate.height).pendingProposalParts := by
  obtain ⟨finalizes, validatorSet⟩ := answers
  unfold decided at present ⊢
  cases decides : Decided.decide config.prune node.world.db certificate state.previousBlock
      finalizes with
  | none =>
    rw [decides] at present
    cases present
  | some outcome =>
    rcases Decided.decide_eq_some decides with ⟨row, usable, commits⟩ | ⟨error, rfl⟩
    · obtain ⟨agrees, rfl⟩ := Decided.commit_eq_some commits
      cases finalizes with
      | false => rfl
      | true =>
        dsimp only
        have pruned := (undecidedBlocks_pruneHistoricalCerts config.prune
          ((node.world.db.insertDecidedBlock certificate.height
            ⟨certificate, .minimal, some row.proposer⟩
              row.executionPayload).cleanStaleConsensusData certificate.height)
          certificate.height).2
        cases certificate.height.increment with
        | none => exact pruned
        | some nextHeight => cases validatorSet <;> exact pruned
    · rw [decides] at present
      cases error with
      | unbound error => cases present
      | _ =>
        obtain rfl := Option.some.inj present
        cases success

theorem PendingInv.decides (inv : PendingInv limit state node.world.db.pendingProposalParts)
    (current : certificate.height = state.currentHeight)
    (answers : DecidedAnswers) :
    ∀ later ∈ (decided config node state certificate answers).state, PendingInv limit later
        (decided config node state certificate answers).world.db.pendingProposalParts := by
  intro later member
  rcases decided_cases config node state certificate answers with refused | ⟨row, commits⟩
  · obtain rfl := refused.state later member
    rw [refused.world]
    exact ⟨inv.bounds, fun info success => by cases success⟩
  have rows : ∀ key parts, (decided config node state certificate
      answers).world.db.pendingProposalParts.get key = some parts →
        node.world.db.pendingProposalParts.get key = some parts := by
    rcases commits.frame.rows with ⟨-, same⟩ | ⟨-, same⟩
    · exact fun key parts found => same ▸ found
    · exact fun key parts found => get_of_cleaned (same ▸ found)
  rcases commits.state later member with failed | ⟨nextHeight, validatorSet, next, -, success⟩
  · rw [failed]
    exact ⟨inv.bounds.fewer rows, fun info success => by cases success⟩
  · have cleaned := pending_decided member (congrArg State.decision success)
    rw [success]
    refine ⟨inv.bounds.fewer rows, fun info same => ?_⟩
    obtain rfl := Decision.success.inj (Option.some.inj same)
    refine ⟨current ▸ Height.increment_eq_some.mp next, fun key live => ?_⟩
    rw [cleaned] at live
    exact current ▸ lt_of_cleaned live

theorem PendingInv.finalizes (inv : PendingInv limit state node.world.db.pendingProposalParts)
    (current : certificate.height = state.currentHeight)
    (evidence : Option (List Byte)) :
    ∀ later ∈ (finalized config node state certificate evidence).state, PendingInv limit later
        (finalized config node state certificate evidence).world.db.pendingProposalParts := by
  intro later member
  have kept := (finalizedFrame_storeFinalized node certificate evidence).pendingProposalParts
  rcases finalized_cases config node state certificate evidence with
    ⟨info, success, moves⟩ | ⟨-, restarts⟩ | ⟨-, same⟩
  · obtain rfl := moves.state later member
    rw [moves.world, kept]
    obtain ⟨next, above⟩ := inv.above info success
    refine ⟨⟨inv.bounds.len, fun key live => ⟨?_, ?_⟩⟩, fun info success => by cases success⟩
    · show info.nextHeight.val ≤ key.height.val
      have := Height.lt_def.mp (above key live)
      omega
    · show key.height.val ≤ info.nextHeight.val + (limit - 1)
      have := (inv.bounds.window key live).2
      omega
  · rw [restarts] at member ⊢
    rcases restartHeight_cases (storeFinalized node certificate evidence)
      { state with decision := none } certificate.height with down | ⟨previous, restarted⟩
    · rw [down] at member
      cases member
    · rw [restarted] at member ⊢
      obtain rfl := Option.some.inj member
      have old : ∀ key parts, ((storeFinalized node certificate
          evidence).world.db.cleanStaleConsensusData certificate.height).pendingProposalParts.get key =
            some parts → node.world.db.pendingProposalParts.get key = some parts :=
        fun key parts found => kept ▸ get_of_cleaned found
      have bounds := inv.bounds.fewer old
      rw [← current] at bounds
      exact ⟨bounds, fun info success => by cases success⟩
  · rw [same] at member
    cases member

theorem pendingBounds_consensusReady (layer : ExecutionLayer) (now : ℕ) :
    ∀ state ∈ (consensusReady engine config node layer now).state,
      PendingInv config.maxPendingProposals state
        (consensusReady engine config node layer now).world.db.pendingProposalParts := by
  unfold consensusReady
  generalize handshakeAndReplay engine layer ⟨node.world, node.finalizations⟩ = ran
  obtain ⟨replayed, handshake⟩ := ran
  intro state member
  cases handshake with
  | none => cases member
  | some result =>
    dsimp only at member ⊢
    cases enforced : enforcePendingProposalsLimit replayed.world.db config.maxPendingProposals
        result.nextHeight with
    | none =>
      rw [enforced] at member
      cases member
    | some db =>
      rw [enforced] at member
      dsimp only at member ⊢
      cases validators : layer.validatorSet result.nextHeight with
      | none =>
        rw [validators] at member
        cases member
      | some validatorSet =>
        rw [validators] at member
        obtain rfl := Option.some.inj member
        rw [← trimPending_table, Option.map_eq_some_iff] at enforced
        obtain ⟨⟨trimmed, removed⟩, same, rfl⟩ := enforced
        have kept := (trimPending_spec same).kept
        refine ⟨⟨?_, fun key live => ?_⟩, fun info success => by cases success⟩
        · show trimmed.pendingProposalParts.len ≤ _
          rw [Table.len_eq_length_keys, kept, List.length_take]
          exact min_le_left _ _
        · have inside : key ∈ trimmed.pendingProposalParts.keys := live
          rw [kept] at inside
          exact of_decide_eq_true (List.mem_filter.mp (List.mem_of_mem_take inside)).2

theorem pendingChange_running (running : node.state = some state) (input : NodeInput) :
    PendingChange E config.maxPendingProposals state.currentHeight (input.arrived state)
      node.world.db.pendingProposalParts
      (runningStep E engine signBytes config node state input).1.world.db.pendingProposalParts := by
  by_cases quiet : input.quiet = true
  · exact pendingChange_quiet running quiet
  have decision : ∀ {certificate validators after}, (Refuses node state after ∨
      ∃ row, Commits config node state certificate validators row after) →
      PendingChange E config.maxPendingProposals state.currentHeight (input.arrived state)
        node.world.db.pendingProposalParts after.world.db.pendingProposalParts := by
    rintro certificate validators after (refused | ⟨row, commits⟩)
    · rw [refused.world]
      exact .refl
    · rcases commits.frame.rows with ⟨-, same⟩ | ⟨-, same⟩
      · rw [same]
        exact .refl
      · rw [same]
        exact .fewer fun _ _ => get_of_cleaned
  cases input with
  | decided certificate answers => exact decision (decided_cases config node state certificate answers)
  | crashInCommit certificate stop =>
    exact decision (interruptedCommit_cases config node state certificate stop)
  | finalized certificate evidence =>
    have kept := (finalizedFrame_storeFinalized node certificate evidence).pendingProposalParts
    show PendingChange E _ _ _ _
      (finalized config node state certificate evidence).world.db.pendingProposalParts
    rcases finalized_cases config node state certificate evidence with
      ⟨info, -, moves⟩ | ⟨-, restarts⟩ | ⟨-, same⟩
    · rw [moves.world, kept]
      exact .refl
    · rw [restarts]
      rcases restartHeight_cases (storeFinalized node certificate evidence)
        { state with decision := none } certificate.height with down | ⟨previous, restarted⟩
      · rw [down]
        exact kept.symm ▸ .refl
      · rw [restarted]
        exact .fewer fun key parts found => kept ▸ get_of_cleaned found
    · rw [same]
      exact .refl
  | crashInFinalized certificate evidence =>
    simp only [runningStep]
    split_ifs
    · exact (finalizedFrame_storeFinalized node certificate evidence).pendingProposalParts.symm ▸ .refl
    · exact .refl
  | _ => exact absurd rfl quiet

theorem KeyedRows.change (keyed : KeyedRows E before)
    (change : PendingChange E limit current arrived before after) : KeyedRows E after := by
  cases change with
  | fewer old => exact fun key parts found => keyed key parts (old key parts found)
  | stores parts arrives room low high same =>
    intro key row found
    rw [same] at found
    obtain ⟨rfl, rfl⟩ | old := Table.get_insert_cases found
    · rfl
    · exact keyed key row old

theorem len_change (small : before.len ≤ limit)
    (change : PendingChange E limit current arrived before after) : after.len ≤ limit := by
  cases change with
  | fewer old => exact (len_le_of_get old).trans small
  | stores parts arrives room low high same =>
    rw [same]
    exact (len_insert_le _ _ _).trans room

/-- **A row is replaced by itself**, if proposals with equal data are cut alike, or by a
collision. -/
theorem KeyedRows.replaces (keyed : KeyedRows E before)
    (change : PendingChange E limit current arrived before after)
    (alike : ∀ parts ∈ arrived, ∀ other ∈ before.get (parts.pendingKey E.keccak),
      other.bytes = parts.bytes → other.data = parts.data) {old new : ProposalParts}
    (had : before.get key = some old)
    (has : after.get key = some new) : old = new ∨ KeyCollision E old new := by
  cases change with
  | fewer fewer => exact .inl (Option.some.inj (had.symm.trans (fewer key new has)))
  | stores parts arrives room low high same =>
    rw [same, Table.get_insert] at has
    split_ifs at has with here
    · obtain rfl := Option.some.inj has
      have keys : old.pendingKey E.keccak = parts.pendingKey E.keccak :=
        (keyed key old had).symm.trans here
      rcases pendingKey_cases keys with collision | ⟨inits, bytes, signatures⟩
      · exact .inr collision
      · left
        have data := alike parts arrives old (here ▸ had) bytes
        obtain ⟨init, oldData, signature⟩ := old
        obtain ⟨init', newData, signature'⟩ := parts
        obtain rfl : init = init' := inits
        obtain rfl : signature = signature' := signatures
        obtain rfl : oldData = newData := data
        rfl
    · exact .inl (Option.some.inj (had.symm.trans has))

end Invariant

/-! ### Runs with changing limits -/

section Run

variable (E : Externals) (engine : Engine) (signBytes : BlockHash → Option Signature)

/-- The node beside the settings of its last process; each start comes with settings of its own. -/
def limitStep (before : Node × NodeConfig) (input : NodeInput × NodeConfig) :
    (Node × NodeConfig) × List StreamMessage :=
  if before.1.state.isSome then
    let result := nodeStep E engine signBytes before.2 before.1 input.1
    ((result.1, before.2), result.2)
  else
    let result := nodeStep E engine signBytes input.2 before.1 input.1
    ((result.1, if result.1.state.isSome then input.2 else before.2), result.2)

def State.settled (state : State) : Bool :=
  match state.decision with
  | some (.success _) => true
  | _ => false

/-- **An orderly step**: consensus works on the height of the node; no proposal of a decided height
is complete before the height is finalized; and a proposal with the bytes of a stored row is cut as
that row is. -/
def Orderly (before : Node × NodeConfig) (input : NodeInput × NodeConfig) : Prop :=
  AtHeight before.1 input.1 ∧ ∀ state ∈ before.1.state, ∀ parts ∈ input.1.arrived state,
    (state.settled = true → parts.height ≠ state.currentHeight) ∧
      ∀ other ∈ before.1.world.db.pendingProposalParts.get (parts.pendingKey E.keccak),
        other.bytes = parts.bytes → other.data = parts.data
  deriving Decidable

structure Limited (before : Node × NodeConfig) : Prop where
  len : before.1.world.db.pendingProposalParts.len ≤ before.2.maxPendingProposals
  keyed : KeyedRows E before.1.world.db.pendingProposalParts
  running : ∀ state ∈ before.1.state,
    PendingInv before.2.maxPendingProposals state before.1.world.db.pendingProposalParts

/-- What a step promises: the table stays within the limit and, while the process runs, within the
window of its height; and no row is replaced by another one. -/
structure KeepsPending (before after : Node × NodeConfig) : Prop where
  len : after.1.world.db.pendingProposalParts.len ≤ after.2.maxPendingProposals
  bounds : ∀ state ∈ after.1.state, PendingBounds after.2.maxPendingProposals state.currentHeight
    after.1.world.db.pendingProposalParts
  rows : ∀ key old new, before.1.world.db.pendingProposalParts.get key = some old →
    after.1.world.db.pendingProposalParts.get key = some new → old = new ∨ KeyCollision E old new

variable {E engine signBytes} {config : NodeConfig} {node : Node} {state : State}

theorem pendingInv_running
    (inv : PendingInv config.maxPendingProposals state node.world.db.pendingProposalParts)
    (running : node.state = some state) {input : NodeInput} (current : AtHeight node input)
    (orderly : ∀ parts ∈ input.arrived state, state.settled = true →
      parts.height ≠ state.currentHeight) :
    ∀ later ∈ (runningStep E engine signBytes config node state input).1.state,
      PendingInv config.maxPendingProposals later
        (runningStep E engine signBytes config node state input).1.world.db.pendingProposalParts := by
  by_cases quiet : input.quiet = true
  · have frame : QuietFrame E node state input
        (runningStep E engine signBytes config node state input).1 := quiet_frame running quiet
    intro later member
    refine (inv.change (pendingChange_running running input) ?_).move (frame.position later member)
    intro parts arrives info success
    exact orderly parts arrives (by rw [State.settled, success])
  cases input with
  | decided certificate answers =>
    exact inv.decides ((current state running).1 certificate rfl) answers
  | finalized certificate evidence =>
    exact inv.finalizes ((current state running).2 certificate rfl) evidence
  | crashInCommit certificate stop =>
    intro later member
    have down : (interruptedCommit config node state certificate stop).state = none := by
      unfold interruptedCommit
      cases getUndecidedBlockByHeightAndBlockHash node.world.db certificate.height
          certificate.valueId with
      | none => rfl
      | some row =>
        dsimp only
        split_ifs <;> rfl
    rw [show (runningStep E engine signBytes config node state
      (.crashInCommit certificate stop)).1.state = none from down] at member
    cases member
  | crashInFinalized certificate evidence =>
    intro later member
    simp only [runningStep] at member
    split_ifs at member
    · cases member
    · cases member
  | _ => exact absurd rfl quiet

theorem limited_step {before : Node × NodeConfig} {input : NodeInput × NodeConfig}
    (limited : Limited E before) (orderly : Orderly E before input) :
    Limited E (limitStep E engine signBytes before input).1 ∧
      KeepsPending E before (limitStep E engine signBytes before input).1 := by
  obtain ⟨node, config⟩ := before
  obtain ⟨len, keyed, inv⟩ := limited
  obtain ⟨current, arrivals⟩ := orderly
  dsimp only at len keyed inv current arrivals
  cases running : node.state with
  | some state =>
    have change : PendingChange E config.maxPendingProposals state.currentHeight
        (input.1.arrived state) node.world.db.pendingProposalParts
        (runningStep E engine signBytes config node state
          input.1).1.world.db.pendingProposalParts := pendingChange_running running input.1
    have later := @pendingInv_running E engine signBytes config node state (inv state running) running
      input.1 current fun parts arrives => (arrivals state running parts arrives).1
    have stepped : (limitStep E engine signBytes (node, config) input).1 =
        ((runningStep E engine signBytes config node state input.1).1, config) := by
      simp [limitStep, nodeStep, running]
    rw [stepped]
    refine ⟨⟨len_change len change, keyed.change change, later⟩, len_change len change,
      fun state member => (later state member).bounds, fun key old new had has => ?_⟩
    exact keyed.replaces change (fun parts arrives => (arrivals state running parts arrives).2) had has
  | none =>
    -- a process that is down either starts or stays as it is
    have rows : ∀ key parts, (nodeStep E engine signBytes input.2 node
        input.1).1.world.db.pendingProposalParts.get key = some parts →
          node.world.db.pendingProposalParts.get key = some parts := by
      unfold nodeStep
      rw [running]
      cases input.1 with
      | consensusReady layer now =>
        exact (consensusReady_cases engine input.2 node layer now).1.pending
      | _ => exact fun _ _ => id
    have started : ∀ state ∈ (nodeStep E engine signBytes input.2 node input.1).1.state,
        PendingInv input.2.maxPendingProposals state
          (nodeStep E engine signBytes input.2 node input.1).1.world.db.pendingProposalParts := by
      unfold nodeStep
      rw [running]
      cases input.1 with
      | consensusReady layer now => exact pendingBounds_consensusReady layer now
      | _ =>
        intro state member
        rw [Option.mem_def, running] at member
        cases member
    have change : ∀ limit, PendingChange E limit 0 none node.world.db.pendingProposalParts
        (nodeStep E engine signBytes input.2 node input.1).1.world.db.pendingProposalParts :=
      fun limit => .fewer rows
    have stepped : (limitStep E engine signBytes (node, config) input).1 =
        ((nodeStep E engine signBytes input.2 node input.1).1,
          if (nodeStep E engine signBytes input.2 node input.1).1.state.isSome then input.2
          else config) := by
      simp [limitStep, running]
    rw [stepped]
    generalize (nodeStep E engine signBytes input.2 node input.1).1 = after at started change
    cases up : after.state with
    | none =>
      have nobody : ∀ {P : State → Prop}, ∀ state ∈ after.state, P state := by
        intro P state member
        rw [Option.mem_def, up] at member
        cases member
      refine ⟨⟨len_change len (change _), keyed.change (change 0), nobody⟩,
        len_change len (change _), nobody, fun key old new had has => ?_⟩
      exact keyed.replaces (change 0) (fun _ absent => by cases absent) had has
    | some state =>
      have here := started state up
      refine ⟨⟨here.bounds.len, keyed.change (change 0), started⟩, here.bounds.len,
        fun state member => (started state member).bounds, fun key old new had has => ?_⟩
      exact keyed.replaces (change 0) (fun _ absent => by cases absent) had has

/-- **The table of pending parts**: along every orderly run of a new node it stays within the limit
and the window and no row is replaced by another; a proposal that is declined changes nothing, nor
does one that is stored again; and the trim keeps the lowest keys of the window and reports the
others. -/
theorem pending_table_bounded {config : NodeConfig} {inputs : List (NodeInput × NodeConfig)}
    (orderly : Along (limitStep E engine signBytes) (Orderly E) (Node.new, config) inputs) :
    Along (limitStep E engine signBytes) (fun before input =>
        KeepsPending E before (limitStep E engine signBytes before input).1)
      (Node.new, config) inputs ∧
    (∀ ctx db parts after, maybeStorePendingProposal E ctx db parts = some (after, false) →
      after = db) ∧
    (∀ ctx db parts after kept, maybeStorePendingProposal E ctx db parts = some (after, kept) →
      db.pendingProposalParts.get (parts.pendingKey E.keccak) = some parts → after = db) ∧
    ∀ db limit current after removed, trimPending db limit current = some (after, removed) →
      TrimSpec db limit current after removed := by
  have begins : Limited E (Node.new, config) := by
    refine ⟨Nat.zero_le _, fun key parts found => ?_, fun state member => by cases member⟩
    have empty : (∅ : Table BlockKey ProposalParts).get key = some parts := found
    cases empty
  refine ⟨along_of_invariant (fun _ _ inv meets => (limited_step inv meets).1)
    (fun _ _ inv meets => (limited_step inv meets).2) begins orderly, ?_, ?_, ?_⟩
  · intro ctx db parts after stored
    rcases maybeStorePendingProposal_cases stored with ⟨-, same⟩ | ⟨kept, -⟩
    · exact same
    · cases kept
  · exact fun ctx db parts after kept stored present => maybeStorePendingProposal_again stored present
  · exact fun db limit current after removed trimmed => trimPending_spec trimmed

end Run

section Samples

/-- The stream of a proposal without data, for a height and a round. -/
def bareStream (height : Height) (round : Fin (2 ^ 32)) : List (NodeInput × NodeConfig) :=
  [⟨newStreamId height round 0, 0, .data (.init ⟨height, .some round, .nil, 3⟩)⟩,
    ⟨newStreamId height round 0, 1, .data (.fin [])⟩, ⟨newStreamId height round 0, 2, .fin⟩].map
    fun message => (.receivedProposalPart ⟨[1], message, 100⟩ none, chainConfig ⟨0, 0⟩)

/-- The node comes up and learns the payload of height 1. -/
def firstHeight : List (NodeInput × NodeConfig) :=
  [.consensusReady (layerAt ⟨5, 0, 0, 0⟩) 0, .startedRound 1 (.some 0) none,
    .processSyncedValue 1 (.some 0) 3 (bareSszBytes genuinePayload)].map
    fun input => (input, chainConfig ⟨0, 0⟩)

def decideFirst : List (NodeInput × NodeConfig) :=
  [(.decided firstCertificate goodAnswers, chainConfig ⟨0, 0⟩)]

def finalizeFirst : List (NodeInput × NodeConfig) :=
  [(.finalized firstCertificate none, chainConfig ⟨0, 0⟩)]

abbrev bareLimitStep : Node × NodeConfig → NodeInput × NodeConfig →
    (Node × NodeConfig) × List StreamMessage :=
  limitStep chainExternals (fun _ _ => .valid) fun _ => none

/-- Proposals of a later round and of the next height are stored; the commit drops the first. -/
theorem pending_table_bounded_early : ((run bareLimitStep (Node.new, chainConfig ⟨0, 0⟩)
        (firstHeight ++ bareStream 1 1 ++ bareStream 2 0 ++ decideFirst ++
          finalizeFirst)).1.world.db.pendingProposalParts.keys.map BlockKey.height = [2]) ∧
      Along bareLimitStep (fun before input => KeepsPending chainExternals before
          (bareLimitStep before input).1)
        (Node.new, chainConfig ⟨0, 0⟩)
        (firstHeight ++ bareStream 1 1 ++ bareStream 2 0 ++ decideFirst ++ finalizeFirst) :=
  ⟨by decide +kernel, (pending_table_bounded (by decide +kernel)).1⟩

/-- Two proposals with the same bytes, cut into one part and into two. -/
def wholeParts : ProposalParts := ⟨⟨2, .some 0, .nil, 3⟩, [[1, 2]], []⟩

def cutParts : ProposalParts := ⟨⟨2, .some 0, .nil, 3⟩, [[1], [2]], []⟩

/-- **A row outlives its height**: a proposal of a later round of height 1 is complete between the
decision of that height and its finalization, and it is still stored when the node works on height
2. And a proposal replaces another one with the same bytes that was cut differently, without a
collision. -/
theorem stale_row_outlives_its_height : ((run bareLimitStep (Node.new, chainConfig ⟨0, 0⟩)
        (firstHeight ++ decideFirst ++ bareStream 1 1 ++ finalizeFirst)).1.state.map
          State.currentHeight = some 2 ∧
      (run bareLimitStep (Node.new, chainConfig ⟨0, 0⟩)
        (firstHeight ++ decideFirst ++ bareStream 1 1 ++
          finalizeFirst)).1.world.db.pendingProposalParts.keys.map BlockKey.height = [1]) ∧
    (((maybeStorePendingProposal chainExternals sampleContext (∅ : AppDb) wholeParts).bind
        fun first => maybeStorePendingProposal chainExternals sampleContext first.1 cutParts).map
          fun second => second.1.pendingProposalParts.get (wholeParts.pendingKey
            chainExternals.keccak)) = some (some cutParts) ∧
      wholeParts ≠ cutParts ∧ ¬ KeyCollision chainExternals wholeParts cutParts := by
  refine ⟨⟨by decide +kernel, by decide +kernel⟩, by decide +kernel, by decide +kernel,
    by decide +kernel⟩

end Samples

end ArcNode.App
