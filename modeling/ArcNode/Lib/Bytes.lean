/-
**Bytes: fixed-width numbers and chunks.**

`beBytes width n` is the big-endian encoding of `n` on `width` bytes; it has that length and is
injective below `256 ^ width`, so fields of fixed width can be read back from a concatenation
(**`beBytes_append_inj`**). `chunks size data` cuts a list as `slice::chunks` does: the pieces put
together are the list (**`chunks_flatten`**), none is longer than `size` (`length_of_mem_chunks`),
and their number is the length divided by `size`, rounded up (`chunks_length_le`).
-/

import Mathlib

namespace ArcNode.Lib

abbrev Byte := Fin 256

-- named, so that the literals of every module rest on the same fact
instance byte_neZero : NeZero 256 := ⟨by decide⟩

/-! ### Big-endian numbers -/

/-- The big-endian encoding of a number on `width` bytes. -/
def beBytes : ℕ → ℕ → List Byte
  | 0, _ => []
  | width + 1, n => beBytes width (n / 256) ++ [Fin.ofNat 256 n]

@[simp] theorem length_beBytes (width n : ℕ) : (beBytes width n).length = width := by
  induction width generalizing n with
  | zero => rfl
  | succ width ih => rw [beBytes, List.length_append, ih, List.length_singleton]

theorem beBytes_inj {width first second : ℕ} (small : first < 256 ^ width)
    (bound : second < 256 ^ width) (same : beBytes width first = beBytes width second) :
    first = second := by
  induction width generalizing first second with
  | zero =>
    rw [pow_zero, Nat.lt_one_iff] at small bound
    rw [small, bound]
  | succ width ih =>
    obtain ⟨high, low⟩ := List.append_inj' same rfl
    rw [pow_succ, mul_comm] at small bound
    have quotients := ih (Nat.div_lt_of_lt_mul small) (Nat.div_lt_of_lt_mul bound) high
    have remainders : first % 256 = second % 256 := by
      have := congrArg Fin.val (List.singleton_inj.mp low)
      simpa [Fin.ofNat] using this
    rw [← Nat.div_add_mod first 256, ← Nat.div_add_mod second 256, quotients, remainders]

/-- **A fixed-width number in front of any bytes is read back.** -/
theorem beBytes_append_inj {width first second : ℕ} {front back : List Byte}
    (small : first < 256 ^ width) (bound : second < 256 ^ width)
    (same : beBytes width first ++ front = beBytes width second ++ back) :
    first = second ∧ front = back := by
  obtain ⟨numbers, rests⟩ := List.append_inj same (by simp)
  exact ⟨beBytes_inj small bound numbers, rests⟩

/-- The number a big-endian byte string spells. -/
def beValue (bytes : List Byte) : ℕ := bytes.foldl (fun value byte => value * 256 + byte.val) 0

theorem beValue_beBytes {width n : ℕ} (small : n < 256 ^ width) :
    beValue (beBytes width n) = n := by
  induction width generalizing n with
  | zero =>
    rw [pow_zero, Nat.lt_one_iff] at small
    rw [small]
    rfl
  | succ width ih =>
    rw [pow_succ, mul_comm] at small
    have high := ih (Nat.div_lt_of_lt_mul small)
    unfold beValue at high ⊢
    rw [beBytes, List.foldl_append, high]
    show n / 256 * 256 + n % 256 = n
    omega

/-! ### Chunks -/

section Chunks

variable {α : Type*} {size : ℕ}

/-- Cut a list into pieces of `size`, with at most `fuel` pieces. -/
def chunksFuel (size : ℕ) : ℕ → List α → List (List α)
  | 0, _ => []
  | _ + 1, [] => []
  | fuel + 1, head :: tail =>
    (head :: tail).take size :: chunksFuel size fuel ((head :: tail).drop size)

/-- Cut a list into pieces of `size`, the last one possibly shorter. -/
def chunks (size : ℕ) (data : List α) : List (List α) := chunksFuel size data.length data

theorem chunksFuel_flatten (positive : 0 < size) (fuel : ℕ) (data : List α)
    (enough : data.length ≤ fuel) : (chunksFuel size fuel data).flatten = data := by
  induction fuel generalizing data with
  | zero =>
    rw [List.length_eq_zero_iff.mp (Nat.le_zero.mp enough)]
    rfl
  | succ fuel ih =>
    cases data with
    | nil => rfl
    | cons head tail =>
      have shorter : ((head :: tail).drop size).length ≤ fuel := by
        rw [List.length_drop]
        simp only [List.length_cons] at enough ⊢
        omega
      rw [chunksFuel, List.flatten_cons, ih _ shorter, List.take_append_drop]

theorem chunks_flatten (positive : 0 < size) (data : List α) : (chunks size data).flatten = data :=
  chunksFuel_flatten positive _ _ le_rfl

theorem length_of_mem_chunksFuel {fuel : ℕ} {data piece : List α}
    (member : piece ∈ chunksFuel size fuel data) : piece.length ≤ size := by
  induction fuel generalizing data with
  | zero => cases member
  | succ fuel ih =>
    cases data with
    | nil => cases member
    | cons head tail =>
      rcases List.mem_cons.mp member with rfl | later
      · exact List.length_take_le _ _
      · exact ih later

theorem length_of_mem_chunks {data piece : List α} (member : piece ∈ chunks size data) :
    piece.length ≤ size :=
  length_of_mem_chunksFuel member

theorem chunksFuel_length_le (fuel count : ℕ) (data : List α) (fits : data.length ≤ count * size) :
    (chunksFuel size fuel data).length ≤ count := by
  induction fuel generalizing data count with
  | zero => exact Nat.zero_le _
  | succ fuel ih =>
    cases data with
    | nil => exact Nat.zero_le _
    | cons head tail =>
      cases count with
      | zero => simp at fits
      | succ count =>
        have rest : ((head :: tail).drop size).length ≤ count * size := by
          rw [Nat.succ_mul] at fits
          rw [List.length_drop]
          omega
        rw [chunksFuel, List.length_cons]
        exact Nat.succ_le_succ (ih count _ rest)

theorem chunks_length_le {count : ℕ} {data : List α} (fits : data.length ≤ count * size) :
    (chunks size data).length ≤ count :=
  chunksFuel_length_le _ _ _ fits

end Chunks

end ArcNode.Lib
