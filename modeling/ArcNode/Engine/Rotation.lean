/-
**The rotation of proposers.**

`ValidatorSet::new` sorts by voting power and address, so every node that reads the same validators,
in whatever order, holds the same set. `RoundRobin` walks over it with the sum of height and round:
over as many heights, or rounds, as there are validators each proposes once
(**`proposers_rotate`**).
-/

import ArcNode.Engine.ValidatorSet
import Mathlib.Data.List.Rotate

namespace ArcNode.Engine

open ArcNode.Types ArcNode.App

section Rotation

variable {validators others : List Validator}

/-- **The order of the validators does not matter**, if no two have the same address. -/
theorem sortValidators_of_perm
    (distinct : validators.Pairwise fun first second => first.address ≠ second.address)
    (perm : others.Perm validators) : sortValidators others = sortValidators validators := by
  let below : Validator → Validator → Prop := fun first second => sortKey first ≤ sortKey second
  have total : Std.Total below := ⟨fun first second => le_total (sortKey first) (sortKey second)⟩
  have trans : IsTrans Validator below := ⟨fun _ _ _ => le_trans⟩
  have sorted := fun list => List.pairwise_insertionSort below list
  have same : others.insertionSort below = validators.insertionSort below := by
    have alike := (List.perm_insertionSort below others).trans
      (perm.trans (List.perm_insertionSort below validators).symm)
    refine alike.eq_of_pairwise (fun first second member member' le ge => ?_) (sorted _) (sorted _)
    have keys := congrArg (fun key => (ofLex key).2) (le_antisymm le ge)
    have listed := (List.perm_insertionSort below validators).subset
    exact List.inj_on_of_nodup_map (List.pairwise_map.mpr distinct) (listed (alike.subset member))
      (listed member') keys
  exact congrArg (List.destutter (· ≠ ·)) same

variable {set : ValidatorSet} {height : Height} {round : Fin (2 ^ 32)}

theorem selectProposer_eq (started : 1 ≤ height.val) (small : height.val + round.val < 2 ^ 63) :
    selectProposer set height (.some round) = set[(height.val - 1 + round.val) % set.length]? := by
  have index : (height.val + (2 ^ 64 - 1) + round.val) % 2 ^ 64 = height.val - 1 + round.val := by omega
  show set[(height.val + (2 ^ 64 - 1) + round.val) % 2 ^ 64 % set.length]? = _
  rw [index]

/-- A window as long as the set shows the set, rotated. -/
theorem window_eq_rotate (start : ℕ) :
    (List.range set.length).map (fun turn => set[(start + turn) % set.length]?) =
      (set.rotate start).map some := by
  refine List.ext_getElem? fun turn => ?_
  rw [List.getElem?_map, List.getElem?_map]
  by_cases inside : turn < set.length
  · have bound : (start + turn) % set.length < set.length := Nat.mod_lt _ (by omega)
    have entry := List.getElem?_eq_getElem bound
    rw [List.getElem?_range inside, List.getElem?_rotate inside, Nat.add_comm turn start, entry]
    exact congrArg some entry
  · rw [List.getElem?_eq_none (by simpa using inside), List.getElem?_eq_none (by simpa using inside)]
    rfl

/-- **Proposers rotate.** Every order of the same validators gives the same set. From any height and
round on, as many heights as there are validators, or as many rounds, are proposed by all of them,
each once; and the next round of a height has the proposer of the next height. -/
theorem proposers_rotate (nonempty : validators ≠ [])
    (distinct : validators.Pairwise fun first second => first.address ≠ second.address)
    (perm : others.Perm validators) :
    ∃ set, ValidatorSet.new validators = some set ∧ ValidatorSet.new others = some set ∧
      ∀ (height : Height) (round : Fin (2 ^ 32)), 1 ≤ height.val →
        height.val + round.val + validators.length < 2 ^ 63 →
        ((List.range validators.length).map fun turn =>
          selectProposer set (.new (height.val + turn)) (.some round)).Perm (validators.map some) ∧
        (round.val + validators.length ≤ 2 ^ 32 → ((List.range validators.length).map fun turn =>
          selectProposer set height (.some (.ofNat _ (round.val + turn)))).Perm
            (validators.map some)) ∧
        ∀ next : Fin (2 ^ 32), next.val = round.val + 1 → selectProposer set height (.some next) =
          selectProposer set (.new (height.val + 1)) (.some round) := by
  have sorted := sortValidators_perm distinct
  have filled : (sortValidators validators).isEmpty = false := by
    cases empty : sortValidators validators with
    | nil => exact absurd ((empty ▸ sorted).nil_eq.symm) nonempty
    | cons first rest => rfl
  refine ⟨sortValidators validators, by rw [ValidatorSet.new, filled]; rfl, ?_,
    fun height round started small => ?_⟩
  · rw [ValidatorSet.new, sortValidators_of_perm distinct perm, filled]
    rfl
  have window := fun start => (@window_eq_rotate (sortValidators validators) start).symm ▸
    ((List.rotate_perm (sortValidators validators) start).trans sorted).map some
  have heights : ∀ turn ≤ validators.length, (Height.new (height.val + turn)).val = height.val + turn :=
    fun turn le => Nat.mod_eq_of_lt (by omega)
  rw [sorted.length_eq] at window
  refine ⟨?_, fun fits => ?_, fun next follows => ?_⟩
  · refine (List.map_congr_left fun turn inside => ?_).symm ▸ window (height.val - 1 + round.val)
    have less := List.mem_range.mp inside
    have exactly := heights turn less.le
    rw [selectProposer_eq (by omega) (by omega), exactly, sorted.length_eq]
    congr 2
    omega
  · refine (List.map_congr_left fun turn inside => ?_).symm ▸ window (height.val - 1 + round.val)
    have less := List.mem_range.mp inside
    have exactly : (Fin.ofNat (2 ^ 32) (round.val + turn)).val = round.val + turn :=
      Nat.mod_eq_of_lt (by omega)
    rw [selectProposer_eq started (by omega), exactly, sorted.length_eq, Nat.add_assoc]
  · have more := heights 1 (List.length_pos_iff.mpr nonempty)
    have some_ := List.length_pos_iff.mpr nonempty
    rw [selectProposer_eq started (by omega), selectProposer_eq (by omega) (by omega), more, follows]
    congr 2
    omega

theorem proposers_rotate_pair :
    ValidatorSet.new [⟨2, 8, 10⟩, ⟨1, 7, 10⟩] = ValidatorSet.new [⟨1, 7, 10⟩, ⟨2, 8, 10⟩] := by
  obtain ⟨set, given, swapped, -⟩ := @proposers_rotate [⟨1, 7, 10⟩, ⟨2, 8, 10⟩] [⟨2, 8, 10⟩, ⟨1, 7, 10⟩]
    (by decide) (by decide) (.swap ..)
  exact swapped.trans given.symm

end Rotation

end ArcNode.Engine
