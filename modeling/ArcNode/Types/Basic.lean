/-
**Heights, rounds, hashes and the keys of the consensus tables.**

`Height` is a 64-bit number whose `increment` panics at the top of the range (`none` here) and whose
subtraction saturates; `Round` is nil or a 32-bit number and is ordered through `asI64`, with nil at
`-1`. A `BlockKey` is the composite key (height, round, hash) of the undecided blocks and of the
pending proposal parts, in lexicographic order as the key types of the database compare it.
-/

import Mathlib
import ArcNode.Lib.Bytes

namespace ArcNode.Types

open ArcNode.Lib

/-! ### Fixed widths -/

instance u32_neZero : NeZero (2 ^ 32) := ⟨by decide⟩

instance u64_neZero : NeZero (2 ^ 64) := ⟨by decide⟩

instance address_neZero : NeZero (2 ^ 160) := ⟨by decide⟩

instance hash_neZero : NeZero (2 ^ 256) := ⟨by decide⟩

/-! ### 64-bit numbers -/

abbrev U64 := Fin (2 ^ 64)

namespace U64

/-- `u64::try_from(value).unwrap_or(u64::MAX)`. -/
def ofNatSaturating (value : ℕ) : U64 := Fin.ofNat _ (min value (2 ^ 64 - 1))

def saturatingAdd (first second : U64) : U64 := ofNatSaturating (first.val + second.val)

def saturatingSub (first second : U64) : U64 := Fin.ofNat _ (first.val - second.val)

def checkedAdd (first second : U64) : Option U64 :=
  if first.val + second.val < 2 ^ 64 then some (first + second) else none

def clamp (low high value : U64) : U64 := max low (min value high)

theorem val_le (value : U64) : value.val ≤ 2 ^ 64 - 1 := Nat.le_pred_of_lt value.isLt

theorem val_ofNatSaturating (value : ℕ) : (ofNatSaturating value).val = min value (2 ^ 64 - 1) :=
  Nat.mod_eq_of_lt (lt_of_le_of_lt (min_le_right _ _) (by decide))

theorem val_saturatingSub (first second : U64) :
    (first.saturatingSub second).val = first.val - second.val :=
  Nat.mod_eq_of_lt (lt_of_le_of_lt (Nat.sub_le _ _) first.isLt)

theorem val_max (first second : U64) : (max first second).val = max first.val second.val :=
  Fin.val_strictMono.monotone.map_max

theorem val_min (first second : U64) : (min first second).val = min first.val second.val :=
  Fin.val_strictMono.monotone.map_min

end U64

/-! ### Heights -/

/-- A blockchain height, a `u64`. -/
@[ext] structure Height where
  val : ℕ
  isLt : val < 2 ^ 64

variable (height : Height)

namespace Height

theorem val_injective : Function.Injective Height.val := fun _ _ same => Height.ext same

instance : LinearOrder Height := LinearOrder.lift' Height.val val_injective

/-- `Height::new`, on a number read modulo the width. -/
def new (n : ℕ) : Height := ⟨n % 2 ^ 64, Nat.mod_lt _ (by decide)⟩

instance (n : ℕ) : OfNat Height n := ⟨new n⟩

instance : Inhabited Height := ⟨0⟩

/-- `Height::increment`; `none` is the panic on overflow. -/
def increment : Option Height :=
  if fits : height.val + 1 < 2 ^ 64 then some ⟨height.val + 1, fits⟩ else none

/-- `Height::increment_by`; `none` is the panic on overflow. -/
def incrementBy (n : ℕ) : Option Height :=
  if fits : height.val + n < 2 ^ 64 then some ⟨height.val + n, fits⟩ else none

def saturatingSub (amount : ℕ) : Height :=
  ⟨height.val - amount, lt_of_le_of_lt (Nat.sub_le _ _) height.isLt⟩

theorem le_def {first second : Height} : first ≤ second ↔ first.val ≤ second.val := Iff.rfl

theorem lt_def {first second : Height} : first < second ↔ first.val < second.val := Iff.rfl

@[simp] theorem zero_val : (0 : Height).val = 0 := rfl

@[simp] theorem saturatingSub_val (amount : ℕ) :
    (height.saturatingSub amount).val = height.val - amount := rfl

theorem increment_eq_some {height next : Height} :
    height.increment = some next ↔ next.val = height.val + 1 := by
  unfold increment
  split_ifs with fits
  · rw [Option.some_inj, Height.ext_iff]
    exact eq_comm
  · have := next.isLt
    simp only [false_iff]
    omega

theorem zero_le : 0 ≤ height := Nat.zero_le _

end Height

/-! ### Rounds -/

inductive Round where
  | nil
  | some (number : Fin (2 ^ 32))
  deriving DecidableEq

namespace Round

/-- `Round::as_i64`, with nil at `-1`. -/
def asI64 : Round → ℤ
  | nil => -1
  | some number => number.val

theorem asI64_injective : Function.Injective asI64 := by
  intro first second same
  cases first <;> cases second <;> simp only [asI64] at same
  · rfl
  · omega
  · omega
  · exact congrArg _ (Fin.ext (by omega))

instance : LinearOrder Round := LinearOrder.lift' asI64 asI64_injective

instance : Inhabited Round := ⟨nil⟩

theorem le_def {first second : Round} : first ≤ second ↔ first.asI64 ≤ second.asI64 := Iff.rfl

theorem nil_le (round : Round) : nil ≤ round := by
  rw [le_def]
  cases round <;> simp [asI64]

/-- `Round::from` on an `i64`; `none` is the failed assertion on a number above `u32::MAX`. -/
def ofI64 (number : ℤ) : Option Round :=
  if number < 0 then Option.some nil
  else if fits : number.toNat < 2 ^ 32 then Option.some (some ⟨number.toNat, fits⟩) else none

theorem ofI64_eq_none {number : ℤ} : ofI64 number = none ↔ 2 ^ 32 ≤ number := by
  unfold ofI64
  split_ifs <;> simp only [false_iff, true_iff] <;> omega

theorem asI64_of_ofI64 {number : ℤ} {round : Round} (nonneg : 0 ≤ number)
    (read : ofI64 number = Option.some round) : round.asI64 = number := by
  unfold ofI64 at read
  rw [if_neg (not_lt.mpr nonneg)] at read
  split_ifs at read
  rw [← Option.some.inj read]
  exact Int.toNat_of_nonneg nonneg

/-- The eight bytes of `round.as_i64().to_be_bytes()`, in two's complement. -/
def toBeBytes (round : Round) : List Byte := beBytes 8 (round.asI64 % 2 ^ 64).toNat

theorem asI64_lt (round : Round) : round.asI64 < 2 ^ 32 := by
  cases round with
  | nil => decide
  | some number => exact Int.ofNat_lt.mpr number.isLt

/-- **A round in front of any bytes is read back.** -/
theorem toBeBytes_append_inj {first second : Round} {front back : List Byte}
    (same : first.toBeBytes ++ front = second.toBeBytes ++ back) : first = second ∧ front = back := by
  have low : ∀ round : Round, -1 ≤ round.asI64 := nil_le
  have width : ∀ round : Round, (round.asI64 % 2 ^ 64).toNat < 256 ^ 8 := by
    intro round
    have := round.asI64_lt
    have := low round
    omega
  obtain ⟨numbers, rests⟩ := beBytes_append_inj (width first) (width second) same
  refine ⟨asI64_injective ?_, rests⟩
  have := first.asI64_lt
  have := second.asI64_lt
  have := low first
  have := low second
  omega

end Round

/-! ### Hashes, addresses and keys -/

/-- A 32-byte hash, as the number its bytes spell; byte order is numeric order. -/
abbrev BlockHash := Fin (2 ^ 256)

abbrev Address := Fin (2 ^ 160)

/-- The key (height, round, hash) of an undecided block or of pending proposal parts. -/
@[ext] structure BlockKey where
  height : Height
  round : Round
  hash : BlockHash

namespace BlockKey

/-- The components in the order the key is compared. -/
def toTuple (key : BlockKey) : Height ×ₗ Round ×ₗ BlockHash :=
  toLex (key.height, toLex (key.round, key.hash))

theorem toTuple_injective : Function.Injective toTuple := by
  intro first second same
  obtain ⟨heights, rests⟩ := Prod.mk.inj (toLex.injective same)
  obtain ⟨rounds, hashes⟩ := Prod.mk.inj (toLex.injective rests)
  exact BlockKey.ext heights rounds hashes

instance : LinearOrder BlockKey := LinearOrder.lift' toTuple toTuple_injective

theorem lt_def {first second : BlockKey} :
    first < second ↔ first.height < second.height ∨ first.height = second.height ∧
      (first.round < second.round ∨ first.round = second.round ∧ first.hash < second.hash) := by
  show first.toTuple < second.toTuple ↔ _
  rw [toTuple, toTuple, Prod.Lex.toLex_lt_toLex, Prod.Lex.toLex_lt_toLex]

/-- The smallest key of a height: nil serializes to `-1` and the zero hash is all zeros. -/
def least : BlockKey := ⟨height, Round.nil, 0⟩

/-- **A composite bound is a height bound.** No key of a height lies below its least key. -/
theorem lt_least_iff {key : BlockKey} {height : Height} :
    key < least height ↔ key.height < height := by
  rw [lt_def]
  constructor
  · rintro (less | ⟨_, below | ⟨_, below⟩⟩)
    · exact less
    · exact absurd below (not_lt.mpr (Round.nil_le _))
    · exact absurd below (Fin.not_lt_zero _)
  · exact Or.inl

theorem least_le_iff {key : BlockKey} {height : Height} :
    least height ≤ key ↔ height ≤ key.height := by
  rw [← not_lt, lt_least_iff, not_lt]

end BlockKey

end ArcNode.Types
