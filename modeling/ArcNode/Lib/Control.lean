/-
**Proportional control in whole numbers.**

`adjust` moves a value up when a load is above its target and down when it is below, by the value
times the distance over a divisor, rounded down; a rise is at least one and everything is cut off at
a cap. It is monotone in the load and in the value (`adjust_mono_load`, `adjust_mono_value`),
although the two branches round in opposite directions. `smoothed` is the weighted mean of two
numbers, rounded down, and lies between them; `within` cuts a number off to a range, and a number
cut off to two ranges that meet ends up in both.
-/

import Mathlib

namespace ArcNode.Lib

/-! ### Cutting off -/

/-- The number in a range that is closest. -/
def within (low high value : ℕ) : ℕ := max low (min value high)

section Within

variable {low high floor ceiling : ℕ}

theorem low_le_within (low high value : ℕ) : low ≤ within low high value := le_max_left _ _

theorem within_le_high (ordered : low ≤ high) (value : ℕ) : within low high value ≤ high :=
  max_le ordered (min_le_right _ _)

theorem within_within_mem (ordered : low ≤ high) (outer : floor ≤ ceiling) (meets : low ≤ ceiling)
    (meets' : floor ≤ high) (value : ℕ) :
    low ≤ within floor ceiling (within low high value) ∧
      within floor ceiling (within low high value) ≤ high := by
  have above := low_le_within low high value
  have below := within_le_high ordered value
  unfold within at above below ⊢
  omega

end Within

/-! ### Weighted means -/

/-- Two numbers weighted by `total - weight` and `weight`, over `total`, rounded down. -/
def smoothed (total weight older newer : ℕ) : ℕ := ((total - weight) * older + weight * newer) / total

theorem smoothed_between {total weight : ℕ} (some' : 0 < total) (most : weight ≤ total)
    (older newer : ℕ) :
    min older newer ≤ smoothed total weight older newer ∧
      smoothed total weight older newer ≤ max older newer := by
  have parts : total - weight + weight = total := Nat.sub_add_cancel most
  have low : total * min older newer ≤ (total - weight) * older + weight * newer := by
    calc total * min older newer
        = (total - weight) * min older newer + weight * min older newer := by
          rw [← Nat.add_mul, parts]
      _ ≤ (total - weight) * older + weight * newer :=
          Nat.add_le_add (Nat.mul_le_mul_left _ (min_le_left _ _))
            (Nat.mul_le_mul_left _ (min_le_right _ _))
  have high : (total - weight) * older + weight * newer ≤ total * max older newer := by
    calc (total - weight) * older + weight * newer
        ≤ (total - weight) * max older newer + weight * max older newer :=
          Nat.add_le_add (Nat.mul_le_mul_left _ (le_max_left _ _))
            (Nat.mul_le_mul_left _ (le_max_right _ _))
      _ = total * max older newer := by rw [← Nat.add_mul, parts]
  constructor
  · exact (Nat.le_div_iff_mul_le some').mpr (by rw [Nat.mul_comm]; exact low)
  · exact Nat.div_le_of_le_mul high

/-! ### The controller -/

def adjust (cap target divisor load value : ℕ) : ℕ :=
  if load = target then value
  else if target < load then min (value + max 1 (min (value * (load - target) / divisor) cap)) cap
  else value - min (value * (target - load) / divisor) cap

section Adjust

variable {cap target divisor load load' value value' : ℕ}

theorem adjust_of_eq (same : load = target) : adjust cap target divisor load value = value :=
  if_pos same

theorem adjust_of_gt (above : target < load) : adjust cap target divisor load value =
    min (value + max 1 (min (value * (load - target) / divisor) cap)) cap := by
  rw [adjust, if_neg (by omega), if_pos above]

/-- Below the target the cap does not matter to a value under it. -/
theorem adjust_of_lt (below : load < target) (small : value ≤ cap) :
    adjust cap target divisor load value = value - value * (target - load) / divisor := by
  rw [adjust, if_neg (by omega), if_neg (by omega)]
  omega

theorem adjust_le_cap (small : value ≤ cap) : adjust cap target divisor load value ≤ cap := by
  unfold adjust
  split_ifs with same above
  · exact small
  · exact min_le_right _ _
  · exact (Nat.sub_le _ _).trans small

/-- **Above the target the value rises**, unless it is at the cap. -/
theorem lt_adjust (above : target < load) : value + 1 ≤ adjust cap target divisor load value ∨
      adjust cap target divisor load value = cap := by
  rw [adjust_of_gt above]
  generalize value * (load - target) / divisor = rise
  omega

theorem adjust_le (below : load < target) : adjust cap target divisor load value ≤ value := by
  rw [adjust, if_neg (by omega), if_neg (by omega)]
  exact Nat.sub_le _ _

theorem adjust_mono_load (small : value ≤ cap) (more : load ≤ load') :
    adjust cap target divisor load value ≤ adjust cap target divisor load' value := by
  rcases lt_trichotomy load target with below | same | above
  · rcases lt_trichotomy load' target with below' | same' | above'
    · rw [adjust_of_lt below small, adjust_of_lt below' small]
      have less : value * (target - load') / divisor ≤ value * (target - load) / divisor :=
        Nat.div_le_div_right (Nat.mul_le_mul_left _ (by omega))
      omega
    · exact (adjust_le below).trans_eq (adjust_of_eq same').symm
    · have lower := @adjust_le cap target divisor load value below
      rcases @lt_adjust cap target divisor load' value above' with higher | highest
      · omega
      · omega
  · rw [adjust_of_eq same]
    rcases eq_or_lt_of_le more with equal | higher
    · rw [adjust_of_eq (equal ▸ same)]
    · rcases @lt_adjust cap target divisor load' value (same ▸ higher) with rise | highest
      · omega
      · omega
  · rw [adjust_of_gt above, adjust_of_gt (above.trans_le more)]
    have less : value * (load - target) / divisor ≤ value * (load' - target) / divisor :=
      Nat.div_le_div_right (Nat.mul_le_mul_left _ (by omega))
    omega

/-- What is left after a share is taken, rounded down, grows with the value. -/
theorem sub_share_mono (more : value ≤ value') (part whole : ℕ) :
    value - value * part / whole ≤ value' - value' * part / whole := by
  rcases Nat.eq_zero_or_pos whole with rfl | positive
  · simpa using more
  rcases le_total part whole with share | excess
  · have step : value' * part / whole ≤ value * part / whole + (value' - value) := by
      have bound : value' * part ≤ value * part + (value' - value) * whole := by
        calc value' * part = value * part + (value' - value) * part := by
              rw [← Nat.add_mul, Nat.add_sub_cancel' more]
          _ ≤ value * part + (value' - value) * whole :=
              Nat.add_le_add_left (Nat.mul_le_mul_left _ share) _
      refine (Nat.div_le_div_right bound).trans_eq ?_
      rw [Nat.add_mul_div_right _ _ positive]
    omega
  · have all : value ≤ value * part / whole :=
      (Nat.le_div_iff_mul_le positive).mpr (Nat.mul_le_mul_left _ excess)
    omega

theorem adjust_mono_value (more : value ≤ value') (small : value' ≤ cap) :
    adjust cap target divisor load value ≤ adjust cap target divisor load value' := by
  rcases lt_trichotomy load target with below | same | above
  · rw [adjust_of_lt below (more.trans small), adjust_of_lt below small]
    exact sub_share_mono more _ _
  · rw [adjust_of_eq same, adjust_of_eq same]
    exact more
  · rw [adjust_of_gt above, adjust_of_gt above]
    have less : value * (load - target) / divisor ≤ value' * (load - target) / divisor :=
      Nat.div_le_div_right (Nat.mul_le_mul_right _ more)
    omega

end Adjust

end ArcNode.Lib
