/-
**A set with an order that nobody may rely on.**

`EnumerableSet` lists its elements without repetition. A new element goes to the end; to remove one,
the last element takes its place. The listing after a removal is a permutation of the listing
without the element (**`swapPop_perm`**), which is all that a proof about the set has to know.
-/

import Mathlib

namespace ArcNode.Lib

section SwapPop

variable {α : Type*} [DecidableEq α]

/-- The last element takes the place of another, and the list gets shorter by one. -/
def swapPop (values : List α) (value : α) : List α :=
  match values.getLast? with
  | none => []
  | some last => (values.set (values.idxOf value) last).dropLast

theorem swapPop_perm {values : List α} (distinct : values.Nodup) {value : α}
    (member : value ∈ values) : (swapPop values value).Perm (values.erase value) := by
  induction values using List.reverseRecOn with
  | nil => cases member
  | append_singleton front last _ =>
    have apart : last ∉ front := fun inside =>
      (List.nodup_append.mp distinct).2.2 _ inside _ (List.mem_singleton_self last) rfl
    unfold swapPop
    rw [List.getLast?_concat]
    dsimp only
    by_cases same : value = last
    · subst same
      rw [List.idxOf_append_of_notMem apart, List.erase_append_right _ apart]
      simp
    · have inside : value ∈ front := by simpa [same] using member
      have place : front.idxOf value < front.length := List.idxOf_lt_length_iff.mpr inside
      rw [List.idxOf_append_of_mem inside, List.erase_append_left _ inside,
        List.set_append_left _ _ place, List.dropLast_concat]
      refine (List.set_perm_cons_eraseIdx place last).trans ?_
      rw [← List.erase_eq_eraseIdx_of_idxOf rfl]
      exact (List.perm_append_singleton last _).symm

end SwapPop

/-- A list without repetition, read as a set. -/
structure EnumerableSet (α : Type*) where
  values : List α
  nodup : values.Nodup

namespace EnumerableSet

variable {α : Type*}

def empty : EnumerableSet α := ⟨[], List.nodup_nil⟩

instance : Membership α (EnumerableSet α) := ⟨fun set value => value ∈ set.values⟩

theorem mem_def {set : EnumerableSet α} {value : α} : value ∈ set ↔ value ∈ set.values := Iff.rfl

variable (set : EnumerableSet α) (value : α)

theorem nodup_concat (absent : value ∉ set.values) : (set.values ++ [value]).Nodup :=
  List.nodup_append.mpr ⟨set.nodup, List.nodup_singleton value, fun _ inside _ final same =>
    absent (List.mem_singleton.mp final ▸ same ▸ inside)⟩

variable [DecidableEq α]

instance (set : EnumerableSet α) (value : α) : Decidable (value ∈ set) :=
  inferInstanceAs (Decidable (value ∈ set.values))

/-- An element that is there already is not added. -/
def add : EnumerableSet α :=
  if present : value ∈ set.values then set
  else ⟨set.values ++ [value], set.nodup_concat value present⟩

theorem nodup_swapPop (present : value ∈ set.values) : (swapPop set.values value).Nodup :=
  (swapPop_perm set.nodup present).nodup_iff.mpr (set.nodup.erase value)

/-- An element that is not there changes nothing. -/
def remove : EnumerableSet α :=
  if present : value ∈ set.values then
    ⟨swapPop set.values value, set.nodup_swapPop value present⟩
  else set

theorem mem_add {set : EnumerableSet α} {value other : α} :
    other ∈ set.add value ↔ other = value ∨ other ∈ set := by
  unfold add
  split_ifs with present
  · refine ⟨Or.inr, fun either => either.elim (fun same => ?_) id⟩
    rw [same]
    exact present
  · rw [mem_def, List.mem_append, List.mem_singleton, or_comm]
    rfl

theorem mem_remove {set : EnumerableSet α} {value other : α} :
    other ∈ set.remove value ↔ other ≠ value ∧ other ∈ set := by
  unfold remove
  split_ifs with present
  · rw [mem_def, (swapPop_perm set.nodup present).mem_iff, set.nodup.mem_erase_iff]
    rfl
  · refine ⟨fun inside => ⟨fun same => present (same ▸ inside), inside⟩, And.right⟩

end EnumerableSet

end ArcNode.Lib
