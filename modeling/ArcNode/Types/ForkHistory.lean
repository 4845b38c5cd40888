/-
**The fork history of a network.**

A network lists its consensus forks from genesis on. `fork_version_at` takes the version of the last
fork before the first inactive one, and `next_fork_condition_after` stops at that one. Both are
right because of the order that `validate_fork_history` has established, in which several forks may
share a height (**`fork_history_lookup`**).
-/

import ArcNode.Types.Basic
import Mathlib.Order.Bounds.Basic

namespace ArcNode.Types

/-! ### The lookups -/

abbrev ForkVersion := Fin (2 ^ 32)

def genesisForkVersion : ForkVersion := 0

/-- `ForkCondition::Block`, the only condition there is. -/
structure ForkCondition where
  height : Height

def ForkCondition.activeAt (condition : ForkCondition) (height : Height) : Bool :=
  condition.height ≤ height

structure ConsensusFork where
  version : ForkVersion
  condition : ForkCondition

variable (forks : List ConsensusFork)

/-- The loop of `fork_version_at`, which breaks at the first fork that is not active. -/
def forkVersionFrom (height : Height) (active : ForkVersion) : List ConsensusFork → ForkVersion
  | [] => active
  | fork :: rest =>
    if fork.condition.activeAt height then forkVersionFrom height fork.version rest else active

def forkVersionAt (height : Height) : ForkVersion := forkVersionFrom height genesisForkVersion forks

def nextForkConditionAfter (height : Height) : Option ForkCondition :=
  (forks.find? fun fork => !fork.condition.activeAt height).map ConsensusFork.condition

/-- The loop of `validate_fork_history` over neighbours. -/
def validateNeighbours : List ConsensusFork → Except String Unit
  | previous :: current :: rest =>
    if current.condition.height < previous.condition.height then
      .error "fork activation heights must be non-decreasing"
    else if current.version ≤ previous.version then
      .error "fork versions must be strictly increasing"
    else validateNeighbours (current :: rest)
  | _ => .ok ()

/-- `validate_fork_history`; an error is a failed assertion. -/
def validateForkHistory : List ConsensusFork → Except String Unit
  | [] => .error "fork history must not be empty"
  | genesis :: rest =>
    if genesis.condition.height ≠ 0 then .error "first fork must activate at height 0 (genesis)"
    else if genesis.version ≠ genesisForkVersion then
      .error "first fork must use GENESIS_FORK_VERSION"
    else validateNeighbours (genesis :: rest)

/-! ### The order of an accepted history -/

structure ConsensusFork.Before (first second : ConsensusFork) : Prop where
  heights : first.condition.height ≤ second.condition.height
  versions : first.version < second.version

variable {forks} {height : Height}

theorem pairwise_of_validateNeighbours (accepted : validateNeighbours forks = .ok ()) :
    forks.Pairwise ConsensusFork.Before := by
  induction forks with
  | nil => exact .nil
  | cons previous rest ih =>
    cases rest with
    | nil => exact List.pairwise_singleton _ _
    | cons current rest =>
      unfold validateNeighbours at accepted
      split_ifs at accepted with falls stays
      have next : previous.Before current := ⟨not_lt.mp falls, not_le.mp stays⟩
      have ordered := ih accepted
      refine List.pairwise_cons.mpr ⟨fun fork member => ?_, ordered⟩
      rcases List.mem_cons.mp member with rfl | later
      · exact next
      · have follows := (List.pairwise_cons.mp ordered).1 fork later
        exact ⟨next.heights.trans follows.heights, next.versions.trans follows.versions⟩

/-- What `validate_fork_history` makes sure of. -/
theorem accepted_spec (accepted : validateForkHistory forks = .ok ()) :
    forks.Pairwise ConsensusFork.Before ∧ ∃ rest, forks = ⟨genesisForkVersion, ⟨0⟩⟩ :: rest := by
  rcases forks with - | ⟨⟨version, ⟨height⟩⟩, rest⟩
  · cases accepted
  · dsimp only [validateForkHistory] at accepted
    split_ifs at accepted with moved renamed
    obtain rfl := not_not.mp moved
    obtain rfl := not_not.mp renamed
    exact ⟨pairwise_of_validateNeighbours accepted, rest, rfl⟩

def activeVersions (forks : List ConsensusFork) (height : Height) : Set ForkVersion :=
  {version | ∃ fork ∈ forks, fork.condition.height ≤ height ∧ fork.version = version}

/-- The loop, from an active fork on. -/
theorem forkVersionFrom_isGreatest {active : ConsensusFork}
    (ordered : (active :: forks).Pairwise ConsensusFork.Before)
    (reached : active.condition.height ≤ height) :
    IsGreatest (activeVersions (active :: forks) height)
      (forkVersionFrom height active.version forks) := by
  induction forks generalizing active with
  | nil =>
    refine ⟨⟨active, List.mem_singleton_self _, reached, rfl⟩, ?_⟩
    rintro version ⟨fork, member, -, rfl⟩
    exact (congrArg ConsensusFork.version (List.mem_singleton.mp member)).le
  | cons fork rest ih =>
    obtain ⟨follow, orderedRest⟩ := List.pairwise_cons.mp ordered
    unfold forkVersionFrom ForkCondition.activeAt
    by_cases also : fork.condition.height ≤ height
    · rw [if_pos (decide_eq_true also)]
      obtain ⟨⟨last, member, lastReached, named⟩, greatest⟩ := ih orderedRest also
      refine ⟨⟨last, List.mem_cons_of_mem _ member, lastReached, named⟩, ?_⟩
      rintro version ⟨other, listed, otherReached, rfl⟩
      rcases List.mem_cons.mp listed with rfl | later
      · exact (follow fork List.mem_cons_self).versions.le.trans
          (greatest ⟨fork, List.mem_cons_self, also, rfl⟩)
      · exact greatest ⟨other, later, otherReached, rfl⟩
    · rw [if_neg (by simpa using also)]
      refine ⟨⟨active, List.mem_cons_self, reached, rfl⟩, ?_⟩
      rintro version ⟨other, listed, otherReached, rfl⟩
      rcases List.mem_cons.mp listed with rfl | later
      · exact le_rfl
      · rcases List.mem_cons.mp later with rfl | behind
        · exact absurd otherReached also
        · have after := ((List.pairwise_cons.mp orderedRest).1 other behind).heights
          exact absurd (after.trans otherReached) also

theorem forkVersionAt_isGreatest (accepted : validateForkHistory forks = .ok ()) (height : Height) :
    IsGreatest (activeVersions forks height) (forkVersionAt forks height) := by
  obtain ⟨ordered, rest, rfl⟩ := accepted_spec accepted
  have active : (0 : Height) ≤ height := Height.zero_le height
  have loop := forkVersionFrom_isGreatest ordered active
  unfold forkVersionAt forkVersionFrom ForkCondition.activeAt
  rwa [if_pos (decide_eq_true active)]

/-! ### The next fork -/

theorem nextForkConditionAfter_eq_none : nextForkConditionAfter forks height = none ↔
      ∀ fork ∈ forks, fork.condition.height ≤ height := by
  simp [nextForkConditionAfter, ForkCondition.activeAt]

theorem nextForkConditionAfter_isLeast (ordered : forks.Pairwise ConsensusFork.Before)
    {next : ForkCondition} (found : nextForkConditionAfter forks height = some next) :
    IsLeast {activation | ∃ fork ∈ forks, fork.condition.height = activation ∧ height < activation}
      next.height := by
  obtain ⟨fork, first, rfl⟩ := Option.map_eq_some_iff.mp found
  obtain ⟨inactive, front, back, rfl, active⟩ := List.find?_eq_some_iff_append.mp first
  refine ⟨⟨fork, by simp, rfl, by simpa [ForkCondition.activeAt] using inactive⟩, ?_⟩
  rintro activation ⟨other, member, rfl, above⟩
  rcases List.mem_append.mp member with earlier | later
  · have reached : other.condition.height ≤ height := by
      simpa [ForkCondition.activeAt] using active other earlier
    exact absurd reached (not_le.mpr above)
  · rcases List.mem_cons.mp later with rfl | behind
    · exact le_rfl
    · exact ((List.pairwise_cons.mp (List.pairwise_append.mp ordered).2.1).1 other behind).heights

/-- A height up to which no other fork is activated has the version of the height before. -/
theorem forkVersionAt_congr {others : List ConsensusFork} {later : Height}
    (accepted : validateForkHistory forks = .ok ()) (acceptedOthers : validateForkHistory others = .ok ())
    (same : activeVersions others later = activeVersions forks height) :
    forkVersionAt others later = forkVersionAt forks height :=
  (same ▸ forkVersionAt_isGreatest acceptedOthers later).unique
    (forkVersionAt_isGreatest accepted height)

/-- **The lookups in an accepted fork history**: the largest version that is active, monotone in the
height; the smallest activation height above, up to which the version does not change; and a fork
that is appended changes nothing below its activation. -/
theorem fork_history_lookup (forks : List ConsensusFork)
    (accepted : validateForkHistory forks = .ok ()) (height : Height) :
    IsGreatest (activeVersions forks height) (forkVersionAt forks height) ∧
      Monotone (forkVersionAt forks) ∧
      (nextForkConditionAfter forks height = none ↔
        ∀ fork ∈ forks, fork.condition.height ≤ height) ∧
      (∀ next, nextForkConditionAfter forks height = some next →
        IsLeast {activation | ∃ fork ∈ forks, fork.condition.height = activation ∧ height < activation}
          next.height) ∧
      (∀ later, height ≤ later →
        (∀ next, nextForkConditionAfter forks height = some next → later < next.height) →
        forkVersionAt forks later = forkVersionAt forks height) ∧
      ∀ fork, validateForkHistory (forks ++ [fork]) = .ok () → ∀ lower < fork.condition.height,
        forkVersionAt (forks ++ [fork]) lower = forkVersionAt forks lower := by
  have greatest := forkVersionAt_isGreatest accepted
  have least := fun next => @nextForkConditionAfter_isLeast forks height (accepted_spec accepted).1 next
  refine ⟨greatest height, fun lower upper le => ?_, nextForkConditionAfter_eq_none, least,
    fun later le below => ?_, fun fork acceptedMore lower less => ?_⟩
  · refine (greatest lower).mono (greatest upper) ?_
    rintro version ⟨fork, member, reached, rfl⟩
    exact ⟨fork, member, reached.trans le, rfl⟩
  · refine forkVersionAt_congr accepted accepted (Set.ext fun version => exists_congr fun fork =>
      and_congr_right fun member => and_congr_left fun _ =>
        ⟨fun reached => ?_, fun reached => reached.trans le⟩)
    by_contra ahead
    cases next : nextForkConditionAfter forks height with
    | none => exact ahead (nextForkConditionAfter_eq_none.mp next fork member)
    | some condition =>
      have first := (least condition next).2 ⟨fork, member, rfl, not_le.mp ahead⟩
      exact absurd (first.trans reached) (not_le.mpr (below condition next))
  · refine forkVersionAt_congr accepted acceptedMore (Set.ext fun version => exists_congr fun other => ?_)
    simp only [List.mem_append, List.mem_singleton]
    constructor
    · rintro ⟨member | rfl, reached, named⟩
      · exact ⟨member, reached, named⟩
      · exact absurd reached (not_le.mpr less)
    · rintro ⟨member, reached, named⟩
      exact ⟨.inl member, reached, named⟩

def sharedHeight : List ConsensusFork := [⟨0, ⟨0⟩⟩, ⟨1, ⟨100⟩⟩, ⟨2, ⟨100⟩⟩]

theorem fork_history_lookup_shared : validateForkHistory sharedHeight = .ok () ∧
    forkVersionAt sharedHeight 99 = 0 ∧ forkVersionAt sharedHeight 100 = 2 ∧
      IsGreatest (activeVersions sharedHeight 100) (forkVersionAt sharedHeight 100) :=
  ⟨rfl, by decide, by decide, (fork_history_lookup sharedHeight rfl 100).1⟩

end ArcNode.Types
