/-
**Which decided payloads a run of commits keeps.**

With certificate pruning off, every commit inserts its payload and then drains one batch of the
payloads below the retain height, `rethAmnesiaHeightCount` below the tip. A commit raises the retain
height by at most one, so at most one more stored height gets stale while a batch removes
`pruneBatchLimit` (`draining_commit`): the backlog shrinks by `pruneBatchLimit - 1` at every commit
until it is gone, and it stays gone (**`decided_blocks_retained`**).
-/

import ArcNode.Store.Pruning

namespace ArcNode.Store

open ArcNode.Lib ArcNode.Types

variable {S : Schema} {V : Type}

/-! ### Lists of keys -/

/-- Without repetition, what is not in the front is the back. -/
theorem filter_notMem_front {α : Type} [DecidableEq α] {front back : List α}
    (nodup : (front ++ back).Nodup) :
    ((front ++ back).filter fun item => item ∉ front) = back := by
  have none : front.filter (fun item => item ∉ front) = [] := by
    rw [List.filter_eq_nil_iff]
    intro item member
    simpa using member
  have all : back.filter (fun item => item ∉ front) = back := by
    rw [List.filter_eq_self]
    intro item member
    simpa using fun taken => (List.disjoint_of_nodup_append nodup) taken member
  rw [List.filter_append, none, all, List.nil_append]

variable (table : Table Height V)

theorem keys_remove (key : Height) :
    (table.remove key).keys = table.keys.filter fun other => other ≠ key := by
  rw [Table.keys, Table.keys, List.filter_map]
  rfl

theorem keys_foldl_remove (removed : List Height) (table : Table Height V) :
    (removed.foldl Table.remove table).keys = table.keys.filter fun key => key ∉ removed := by
  induction removed generalizing table with
  | nil => simp
  | cons head rest ih =>
    rw [List.foldl_cons, ih, keys_remove, List.filter_filter]
    refine List.filter_congr fun key _ => ?_
    simp [Bool.and_comm]

/-! ### One batch -/

/-- The stored heights below a height. -/
def heightsBelow (height : Height) : List Height :=
  table.keys.filter fun key => key < height

theorem mem_heightsBelow {table : Table Height V} {height key : Height} :
    key ∈ heightsBelow table height ↔ key ∈ table.keys ∧ key < height := by
  simp [heightsBelow]

theorem nodup_heightsBelow (height : Height) : (heightsBelow table height).Nodup :=
  table.keys_nodup.filter _

/-- **A batch that drains a table from below**: it removes nothing at or above the retain height,
the lowest heights first, and `pruneBatchLimit` of them or all there are. -/
structure DrainsLowest (before after : Table Height V) (retain : Height) : Prop where
  others : ∀ height, after.get height = before.get height ∨
    (height < retain ∧ after.get height = none)
  lowest : ∀ removed ∈ before.keys, removed ∉ after.keys →
    ∀ height ∈ before.keys, height < removed → height ∉ after.keys
  count : (before.keys.filter fun height => height ∉ after.keys).length =
    min pruneBatchLimit (heightsBelow before retain).length

section Batch

variable {table : Table Height V} {retain : Height}

theorem keys_pruneHeightTableBatch : (pruneHeightTableBatch table retain).1.keys =
      table.keys.filter fun key => key ∉ staleKeys table retain :=
  keys_foldl_remove _ _

theorem mem_keys_of_mem_staleKeys {height : Height} (stale : height ∈ staleKeys table retain) :
    height ∈ table.keys :=
  (List.mem_filter.mp (List.mem_of_mem_take stale)).1

theorem heightsBelow_pruneHeightTableBatch :
    heightsBelow (pruneHeightTableBatch table retain).1 retain =
      (heightsBelow table retain).drop pruneBatchLimit := by
  have split := List.take_append_drop pruneBatchLimit (heightsBelow table retain)
  have others := filter_notMem_front (split.symm ▸ nodup_heightsBelow table retain)
  rw [split] at others
  rw [heightsBelow, keys_pruneHeightTableBatch, List.filter_comm]
  exact others

theorem drainsLowest_pruneHeightTableBatch :
    DrainsLowest table (pruneHeightTableBatch table retain).1 retain where
  others height := by
    rw [pruneHeightTableBatch, get_foldl_remove]
    split_ifs with stale
    · exact Or.inr ⟨lt_of_mem_staleKeys stale, rfl⟩
    · exact Or.inl rfl
  lowest removed present gone height other less stays :=
    gone (pruneHeightTableBatch_suffix stays less.le present)
  count := by
    have removed : (table.keys.filter fun height =>
        height ∉ (pruneHeightTableBatch table retain).1.keys).Perm (staleKeys table retain) := by
      refine (List.perm_ext_iff_of_nodup (table.keys_nodup.filter _)
        ((nodup_heightsBelow table retain).sublist (List.take_sublist _ _))).mpr fun height => ?_
      rw [keys_pruneHeightTableBatch]
      simp only [List.mem_filter, decide_eq_true_eq, not_and, not_not]
      exact ⟨fun both => both.2 both.1,
        fun stale => ⟨mem_keys_of_mem_staleKeys stale, fun _ => stale⟩⟩
    rw [removed.length_eq, staleKeys, List.length_take]
    rfl

end Batch

/-! ### What a commit adds to the backlog -/

/-- The lowest height that is kept below a tip. -/
def retainHeight (tip : Height) : Height := tip.saturatingSub rethAmnesiaHeightCount

theorem retainHeight_le (tip : Height) : retainHeight tip ≤ tip :=
  Height.le_def.mpr (Nat.sub_le _ _)

/-- The next retain height makes at most one more height stale. -/
theorem length_heightsBelow_le {tip next : Height} (step : next.val ≤ tip.val + 1) :
    (heightsBelow table (retainHeight next)).length ≤
      (heightsBelow table (retainHeight tip)).length + 1 := by
  have inside : heightsBelow table (retainHeight next) ⊆
      retainHeight tip :: heightsBelow table (retainHeight tip) := by
    intro height member
    obtain ⟨present, less⟩ := mem_heightsBelow.mp member
    rw [Height.lt_def, retainHeight, Height.saturatingSub_val] at less
    rw [List.mem_cons, mem_heightsBelow]
    by_cases same : height = retainHeight tip
    · exact Or.inl same
    · refine Or.inr ⟨present, Height.lt_def.mpr ?_⟩
      have different : height.val ≠ (retainHeight tip).val := fun equal => same (Height.ext equal)
      rw [retainHeight, Height.saturatingSub_val] at different ⊢
      omega
  exact ((nodup_heightsBelow table _).subperm inside).length_le

theorem length_heightsBelow_insert {height retain : Height} (value : V) (above : retain ≤ height) :
    (heightsBelow (table.insert height value) retain).length = (heightsBelow table retain).length := by
  refine List.Perm.length_eq ((List.perm_ext_iff_of_nodup (nodup_heightsBelow _ _)
    (nodup_heightsBelow _ _)).mpr fun key => ?_)
  rw [mem_heightsBelow, mem_heightsBelow, Table.mem_keys_insert]
  constructor
  · rintro ⟨rfl | present, less⟩
    · exact absurd less (not_lt.mpr above)
    · exact ⟨present, less⟩
  · exact fun ⟨present, less⟩ => ⟨Or.inr present, less⟩

/-! ### Runs -/

/-- All payloads a run was given: those it started with and those of its commits. -/
def everStored (table : Table Height S.DecidedBlock) (commits : List (Commit S)) :
    Table Height S.DecidedBlock :=
  commits.foldl (fun stored decision => stored.insert decision.height decision.payload) table

/-- **The state of a drain** with the tip at `tip`: the payloads from the retain height on are
there, and the stale ones are what the backlog has left after a number of commits. -/
structure Draining (db : Db S) (ever : Table Height S.DecidedBlock) (tip top : Height)
    (backlog commits : ℕ) : Prop where
  certificates : ∀ height ∈ db.certificates.keys, height ≤ top
  bounded : ∀ height ∈ ever.keys, height ≤ top
  kept : ∀ height, retainHeight tip ≤ height → db.decidedBlocks.get height = ever.get height
  stored : ∀ height, db.decidedBlocks.get height = ever.get height ∨
    db.decidedBlocks.get height = none
  stale : (heightsBelow db.decidedBlocks (retainHeight tip)).length ≤
    backlog - (pruneBatchLimit - 1) * commits

/-- The commit at `next` follows: it is not below what is stored and at most one above the tip. -/
structure Follows (tip top next : Height) : Prop where
  above : tip ≤ next
  step : next.val ≤ tip.val + 1
  covers : top ≤ next

section Commit

variable {config : PruningConfig} {db : Db S} {decision : Commit S}
  {ever : Table Height S.DecidedBlock} {tip top : Height} {backlog commits : ℕ}

theorem pruneHistoricalCerts_of_off (off : config.enabled = false) (latest : Height) :
    pruneHistoricalCerts config db latest = db := by
  rw [pruneHistoricalCerts, off]
  rfl

theorem certificates_commit_of_off (off : config.enabled = false) :
    (commit config db decision).certificates =
      db.certificates.insert decision.height decision.certificate := by
  unfold commit
  dsimp only
  rw [pruneHistoricalCerts_of_off off]
  cases decision.finalizes <;> rfl

/-- The tip is the committed height, so the batch goes up to its retain height. -/
theorem decidedBlocks_commit_of_off (off : config.enabled = false)
    (finalizes : decision.finalizes = true)
    (bounded : ∀ height ∈ db.certificates.keys, height ≤ decision.height) :
    (commit config db decision).decidedBlocks =
      (pruneHeightTableBatch (db.decidedBlocks.insert decision.height decision.payload)
        (retainHeight decision.height)).1 := by
  have newest : (Db.cleanStaleConsensusData (db.insertDecidedBlock decision.height
      decision.certificate decision.payload) decision.height).maxHeight = some decision.height := by
    refine Db.maxHeight_eq_some.mpr ⟨?_, fun other member => ?_⟩
    · exact Option.isSome_iff_exists.mpr ⟨_, Table.get_insert_self _ _ _⟩
    · rcases Table.mem_keys_insert.mp member with rfl | old
      · exact le_rfl
      · exact bounded other old
  unfold commit
  dsimp only
  rw [finalizes, if_pos rfl, pruneHistoricalCerts_of_off off, pruneBlocks, newest]
  rfl

theorem draining_commit (off : config.enabled = false) (finalizes : decision.finalizes = true)
    (draining : Draining db ever tip top backlog commits)
    (follows : Follows tip top decision.height) :
    Draining (commit config db decision) (ever.insert decision.height decision.payload)
      decision.height decision.height backlog (commits + 1) := by
  have below : ∀ height ∈ db.certificates.keys, height ≤ decision.height :=
    fun height member => (draining.certificates height member).trans follows.covers
  have blocks := decidedBlocks_commit_of_off off finalizes below
  have drains : DrainsLowest _ (commit config db decision).decidedBlocks _ :=
    blocks ▸ drainsLowest_pruneHeightTableBatch
  have raised : retainHeight tip ≤ retainHeight decision.height :=
    Height.le_def.mpr (Nat.sub_le_sub_right (Height.le_def.mp follows.above) _)
  refine ⟨?_, ?_, ?_, ?_, ?_⟩
  · intro height member
    rw [certificates_commit_of_off off, Table.mem_keys_insert] at member
    rcases member with rfl | old
    · exact le_rfl
    · exact below height old
  · intro height member
    rcases Table.mem_keys_insert.mp member with rfl | old
    · exact le_rfl
    · exact (draining.bounded height old).trans follows.covers
  · intro height above
    rcases drains.others height with same | ⟨less, _⟩
    · rw [same, Table.get_insert, Table.get_insert]
      split_ifs
      · rfl
      · exact draining.kept height (raised.trans above)
    · exact absurd less (not_lt.mpr above)
  · intro height
    rcases drains.others height with same | ⟨_, gone⟩
    · rw [same, Table.get_insert, Table.get_insert]
      split_ifs
      · exact Or.inl rfl
      · exact draining.stored height
    · exact Or.inr gone
  · have arrived := length_heightsBelow_le db.decidedBlocks follows.step
    have before := draining.stale
    rw [blocks, heightsBelow_pruneHeightTableBatch, List.length_drop,
      length_heightsBelow_insert _ _ (retainHeight_le _), Nat.mul_succ]
    unfold pruneBatchLimit at before ⊢
    omega

/-- What a drained table holds: the payloads of the window, and nothing else. -/
def HoldsWindow (db : Db S) (ever : Table Height S.DecidedBlock) (tip : Height) : Prop :=
  ∀ height, db.decidedBlocks.get height =
    if retainHeight tip ≤ height ∧ height ≤ tip then ever.get height else none

/-- No stored payload is stale. -/
def WorkedOff (db : Db S) (tip : Height) : Prop :=
  ∀ height ∈ db.decidedBlocks.keys, retainHeight tip ≤ height

theorem heightsBelow_eq_nil_iff {table : Table Height V} {retain : Height} :
    heightsBelow table retain = [] ↔ ∀ height ∈ table.keys, retain ≤ height := by
  rw [heightsBelow, List.filter_eq_nil_iff]
  simp

theorem Draining.holdsWindow (draining : Draining db ever tip tip backlog commits)
    (done : WorkedOff db tip) : HoldsWindow db ever tip := by
  intro height
  split_ifs with inside
  · exact draining.kept height inside.1
  · rcases draining.stored height with same | gone
    · cases found : db.decidedBlocks.get height with
      | none => rfl
      | some payload =>
        have present : (db.decidedBlocks.get height).isSome := by rw [found]; rfl
        have low := done height (Table.mem_keys.mpr present)
        have high := draining.bounded height (Table.mem_keys.mpr (same ▸ present))
        exact absurd ⟨low, high⟩ inside
    · exact gone

theorem Draining.workedOff (draining : Draining db ever tip top backlog commits)
    (enough : backlog ≤ (pruneBatchLimit - 1) * commits) : WorkedOff db tip := by
  refine heightsBelow_eq_nil_iff.mp (List.length_eq_zero_iff.mp ?_)
  have := draining.stale
  omega

/-- A drain whose backlog is worked off is one without a backlog. -/
theorem Draining.restart (draining : Draining db ever tip top backlog commits)
    (done : WorkedOff db tip) : Draining db ever tip top 0 0 :=
  { draining with
    stale := by
      rw [heightsBelow_eq_nil_iff.mpr done]
      exact Nat.zero_le _ }

end Commit

/-- Commits at consecutive heights, each followed by its `prune_blocks`. -/
structure ConsecutiveCommits (commits : List (Commit S)) : Prop where
  finalizes : ∀ decision ∈ commits, decision.finalizes = true
  heights : commits.IsChain fun decision next => decision.height.val + 1 = next.height.val

variable {decision : Commit S} {rest : List (Commit S)}

theorem ConsecutiveCommits.tail
    (consecutive : ConsecutiveCommits (decision :: rest)) : ConsecutiveCommits rest where
  finalizes next member := consecutive.finalizes next (List.mem_cons_of_mem _ member)
  heights := consecutive.heights.tail

theorem ConsecutiveCommits.of_append {front back : List (Commit S)}
    (consecutive : ConsecutiveCommits (front ++ back)) : ConsecutiveCommits back := by
  induction front with
  | nil => exact consecutive
  | cons first rest ih => exact ih consecutive.tail

theorem ConsecutiveCommits.follows {decision next : Commit S}
    (consecutive : ConsecutiveCommits (decision :: next :: rest)) :
    Follows decision.height decision.height next.height := by
  have step := (List.isChain_cons_cons.mp consecutive.heights).1
  exact ⟨Height.le_def.mpr (by omega), by omega, Height.le_def.mpr (by omega)⟩

theorem ConsecutiveCommits.follows_head
    (consecutive : ConsecutiveCommits (decision :: rest)) :
    ∀ next ∈ rest.head?, Follows decision.height decision.height next.height := by
  intro next head
  obtain ⟨others, rfl⟩ := List.head?_eq_some_iff.mp head
  exact consecutive.follows

variable {ever : Table Height S.DecidedBlock} {back : List (Commit S)}

section Run

variable {config : PruningConfig} {backlog : ℕ}

/-- **A run of commits drains.** Up to each of its commits the state is a drain that the commit
follows. -/
theorem draining_run (off : config.enabled = false) {db : Db S}
    {tip top : Height} {count : ℕ} (front : List (Commit S))
    (draining : Draining db ever tip top backlog count)
    (consecutive : ConsecutiveCommits (front ++ decision :: back))
    (follows : ∀ first ∈ (front ++ decision :: back).head?, Follows tip top first.height) :
    ∃ lastTip lastTop, Draining (run (commitStep config) db front) (everStored ever front) lastTip
      lastTop backlog (count + front.length) ∧ Follows lastTip lastTop decision.height := by
  induction front generalizing db ever tip top count with
  | nil => exact ⟨tip, top, draining, follows decision rfl⟩
  | cons first rest ih =>
    have after := draining_commit off (consecutive.finalizes first List.mem_cons_self) draining
      (follows first rfl)
    obtain ⟨lastTip, lastTop, last, next⟩ := ih after consecutive.tail consecutive.follows_head
    refine ⟨lastTip, lastTop, ?_, next⟩
    rw [List.length_cons, ← Nat.add_assoc, Nat.add_right_comm]
    exact last

/-- A drain along a run up to and including one of its commits. -/
theorem draining_after (off : config.enabled = false) {db : Db S} {tip top : Height}
    {front : List (Commit S)} (draining : Draining db ever tip top backlog 0)
    (consecutive : ConsecutiveCommits (front ++ decision :: back))
    (follows : ∀ first ∈ (front ++ decision :: back).head?, Follows tip top first.height) :
    Draining (run (commitStep config) db (front ++ [decision]))
      (everStored ever (front ++ [decision])) decision.height decision.height backlog
      (front.length + 1) := by
  obtain ⟨lastTip, lastTop, last, next⟩ := draining_run off front draining consecutive follows
  have finalizes := consecutive.finalizes decision (by simp)
  have after := draining_commit off finalizes last next
  rw [run_append, everStored, List.foldl_append]
  rw [Nat.zero_add] at after
  exact after

/-- The tip that the first commit extends. -/
def firstTip (commits : List (Commit S)) : Height :=
  (commits.head?.elim 0 Commit.height).saturatingSub 1

/-- The payloads that are stale when a run starts. -/
def backlogOf (start : Db S) (commits : List (Commit S)) : ℕ :=
  (heightsBelow start.decidedBlocks (retainHeight (firstTip commits))).length

/-- The tables start at or below the height of the first commit. -/
def StartsBelow (start : Db S) (commits : List (Commit S)) : Prop :=
  ∀ first ∈ commits.head?, (∀ height ∈ start.decidedBlocks.keys, height ≤ first.height) ∧
    ∀ height ∈ start.certificates.keys, height ≤ first.height

theorem follows_firstTip {commits : List (Commit S)} :
    ∀ first ∈ commits.head?, Follows (firstTip commits) first.height first.height := by
  intro first head
  have found : commits.head? = some first := head
  have tip : (firstTip commits).val = first.height.val - 1 := by
    rw [firstTip, found]
    rfl
  exact ⟨Height.le_def.mpr (by omega), by omega, le_rfl⟩

theorem draining_start {start : Db S} {commits : List (Commit S)} (below : StartsBelow start commits)
    {first : Commit S} (head : commits.head? = some first) :
    Draining start start.decidedBlocks (firstTip commits) first.height (backlogOf start commits)
      0 where
  certificates := (below first head).2
  bounded := (below first head).1
  kept _ _ := rfl
  stored _ := Or.inl rfl
  stale := le_rfl

end Run

/-- **What a commit of a run keeps and removes.** -/
structure Retains (config : PruningConfig) (start : Db S) (backlog : ℕ) (front : List (Commit S))
    (decision : Commit S) : Prop where
  kept : ∀ height, retainHeight decision.height ≤ height →
    (run (commitStep config) start (front ++ [decision])).decidedBlocks.get height =
      (everStored start.decidedBlocks (front ++ [decision])).get height
  drains : DrainsLowest
    ((run (commitStep config) start front).decidedBlocks.insert decision.height decision.payload)
    (run (commitStep config) start (front ++ [decision])).decidedBlocks (retainHeight decision.height)
  exact : ∀ done last, done ++ [last] <+: front ++ [decision] →
    WorkedOff (run (commitStep config) start (done ++ [last])) last.height ∨
        backlog / (pruneBatchLimit - 1) + 1 ≤ done.length + 1 →
      HoldsWindow (run (commitStep config) start (front ++ [decision]))
        (everStored start.decidedBlocks (front ++ [decision])) decision.height

/-- A drain that was worked off stays so: the later commits find no backlog. -/
theorem workedOff_later {config : PruningConfig} (off : config.enabled = false) {db : Db S}
    {backlog count : ℕ} {last : Commit S}
    {later : List (Commit S)}
    (draining : Draining db ever last.height last.height backlog count)
    (done : WorkedOff db last.height)
    (consecutive : ConsecutiveCommits (last :: (later ++ decision :: back))) :
    WorkedOff (run (commitStep config) db (later ++ [decision])) decision.height :=
  (draining_after off (draining.restart done) consecutive.tail consecutive.follows_head).workedOff
    (Nat.zero_le _)

/-- **Decided payloads are retained.** In every run of commits at consecutive heights, with
certificate pruning off and tables that start at or below the first of them: the payloads from the
retain height on are never removed, every commit removes the lowest stale heights and nothing else,
and once the backlog is worked off, which takes at most `backlog / (pruneBatchLimit - 1) + 1`
commits, the table is the window below the tip. -/
theorem decided_blocks_retained (config : PruningConfig) (start : Db S) (commits : List (Commit S))
    (off : config.enabled = false) (consecutive : ConsecutiveCommits commits)
    (below : StartsBelow start commits) {front : List (Commit S)}
    (split : commits = front ++ decision :: back) :
    Retains config start (backlogOf start commits) front decision := by
  obtain ⟨first, head⟩ : ∃ first, commits.head? = some first := by
    rw [split, List.head?_append]
    cases front.head? with
    | none => exact ⟨decision, rfl⟩
    | some first => exact ⟨first, rfl⟩
  obtain ⟨tip, started, follows⟩ : ∃ tip, Draining start start.decidedBlocks tip first.height
      (backlogOf start commits) 0 ∧ ∀ next ∈ commits.head?, Follows tip first.height next.height := by
    refine ⟨firstTip commits, draining_start below head, ?_⟩
    intro next found
    obtain rfl : first = next := Option.some.inj (head.symm.trans found)
    exact follows_firstTip first head
  -- Every prefix of the run that ends in a commit is a drain.
  have drain : ∀ done last others, commits = done ++ last :: others →
      Draining (run (commitStep config) start (done ++ [last]))
        (everStored start.decidedBlocks (done ++ [last])) last.height last.height
        (backlogOf start commits) (done.length + 1) := by
    intro done last others parts
    rw [parts] at consecutive follows
    exact draining_after off started consecutive follows
  have here := drain front decision back split
  refine ⟨here.kept, ?_, ?_⟩
  · obtain ⟨tip, top, before, next⟩ :=
      draining_run off front started (split ▸ consecutive) (split ▸ follows)
    have blocks := decidedBlocks_commit_of_off off
      (consecutive.finalizes decision (by simp [split]))
      fun height member => (before.certificates height member).trans next.covers
    rw [run_append]
    exact blocks ▸ drainsLowest_pruneHeightTableBatch
  · rintro done last ⟨rest, whole⟩ reached
    have parts : commits = done ++ last :: (rest ++ back) := by
      rw [split, List.append_cons, ← whole]
      simp
    have early := drain done last _ parts
    have finished : WorkedOff (run (commitStep config) start (done ++ [last])) last.height := by
      rcases reached with finished | enough
      · exact finished
      · refine early.workedOff ?_
        have := Nat.div_add_mod (backlogOf start commits) (pruneBatchLimit - 1)
        have := Nat.mod_lt (backlogOf start commits) (show pruneBatchLimit - 1 > 0 by decide)
        have := Nat.mul_le_mul_left (pruneBatchLimit - 1) enough
        rw [Nat.mul_add] at this
        omega
    refine here.holdsWindow ?_
    rcases List.eq_nil_or_concat' rest with rfl | ⟨later, final, rfl⟩
    · rw [List.append_nil] at whole
      obtain ⟨rfl, same⟩ := List.append_inj' whole rfl
      cases same
      exact finished
    · rw [← List.append_assoc] at whole
      obtain ⟨rfl, same⟩ := List.append_inj' whole rfl
      cases same
      have tail : ConsecutiveCommits (last :: (later ++ decision :: back)) := by
        rw [parts] at consecutive
        simpa using consecutive.of_append
      rw [List.append_assoc, run_append]
      exact workedOff_later off early finished tail

/-- A store with payloads far below its tip. -/
def agedDb : Db Schema.raw :=
  ((∅ : Db Schema.raw).insertDecidedBlock 3 [1] [3]).insertDecidedBlock 10008 [1] [3]

/-- Two commits on top of it. -/
def agedCommits : List (Commit Schema.raw) := [⟨10009, [1], [3], true⟩, ⟨10010, [1], [3], true⟩]

theorem decided_blocks_retained_aged :
    Retains ⟨0, 0⟩ agedDb (backlogOf agedDb agedCommits) [⟨10009, [1], [3], true⟩]
      ⟨10010, [1], [3], true⟩ := by
  refine decided_blocks_retained ⟨0, 0⟩ agedDb agedCommits rfl ⟨?_, ?_⟩ ?_ rfl
  · decide
  · simp only [agedCommits, List.isChain_cons_cons, List.isChain_singleton, and_true]
    rfl
  · intro first head
    cases head
    decide

end ArcNode.Store
