/-
**Simple Serialize: containers and options.**

A container writes its fixed-size fields in place and a four-byte offset for each variable-size one,
whose bytes follow after all fixed fields, in order. Containers of one shape are read back: equal
encodings shorter than `2 ^ 32` bytes have equal fields (**`container_inj`**). The fixed parts split
alike, each offset fixes the length of the variable field before it, and the last one ends where the
encoding ends. An option is a union: a selector byte, then the value.
-/

import Mathlib
import ArcNode.Lib.Bytes

namespace ArcNode.Lib.Ssz

/-! ### Numbers and options -/

/-- The little-endian encoding of a number on `width` bytes. -/
def leBytes (width n : ℕ) : List Byte := (beBytes width n).reverse

@[simp] theorem length_leBytes (width n : ℕ) : (leBytes width n).length = width := by
  rw [leBytes, List.length_reverse, length_beBytes]

theorem leBytes_inj {width first second : ℕ} (small : first < 256 ^ width)
    (bound : second < 256 ^ width) (same : leBytes width first = leBytes width second) :
    first = second :=
  beBytes_inj small bound (List.reverse_injective same)

/-- An option as a union with the selectors 0 and 1. -/
def optionBytes : Option (List Byte) → List Byte
  | none => [0]
  | some bytes => 1 :: bytes

theorem optionBytes_injective : Function.Injective optionBytes := by
  intro first second same
  cases first <;> cases second
  · rfl
  · exact absurd (List.cons.inj same).1 (by decide)
  · exact absurd (List.cons.inj same).1 (by decide)
  · exact congrArg some (List.cons.inj same).2

/-! ### Containers -/

/-- The encoding of a field, of fixed or of variable size. -/
inductive Part where
  | fixed (bytes : List Byte)
  | dynamic (bytes : List Byte)

def Part.headLength : Part → ℕ
  | fixed bytes => bytes.length
  | dynamic _ => 4

variable (parts : List Part)

/-- The length of what stands before the variable-size fields. -/
def fixedLength : ℕ := (parts.map Part.headLength).sum

/-- The fixed-size fields and the offsets of the others, from the first offset on. -/
def heads : ℕ → List Part → List Byte
  | _, [] => []
  | offset, .fixed bytes :: rest => bytes ++ heads offset rest
  | offset, .dynamic bytes :: rest => leBytes 4 offset ++ heads (offset + bytes.length) rest

def tails : List Part → List Byte
  | [] => []
  | .fixed _ :: rest => tails rest
  | .dynamic bytes :: rest => bytes ++ tails rest

/-- The encoding of a container. -/
def container : List Byte := heads (fixedLength parts) parts ++ tails parts

/-- Two fields of the same kind and, if it is fixed, the same size. -/
def SameShape : Part → Part → Prop
  | .fixed first, .fixed second => first.length = second.length
  | .dynamic _, .dynamic _ => True
  | _, _ => False

theorem length_heads (offset : ℕ) (parts : List Part) :
    (heads offset parts).length = fixedLength parts := by
  induction parts generalizing offset with
  | nil => rfl
  | cons part rest ih =>
    cases part with
    | fixed bytes =>
      rw [heads, List.length_append, ih]
      rfl
    | dynamic bytes =>
      rw [heads, List.length_append, length_leBytes, ih]
      rfl

theorem length_container : (container parts).length = fixedLength parts + (tails parts).length := by
  rw [container, List.length_append, length_heads]

theorem fixedLength_eq {first second : List Part} (shape : List.Forall₂ SameShape first second) :
    fixedLength first = fixedLength second := by
  induction shape with
  | nil => rfl
  | @cons one other _ _ here _ ih =>
    show one.headLength + fixedLength _ = other.headLength + fixedLength _
    rw [ih]
    cases one <;> cases other
    · rw [Part.headLength, Part.headLength, show List.length _ = List.length _ from here]
    · exact absurd here id
    · exact absurd here id
    · rfl

/-- **An offset is read back** from the heads, unless there is no variable-size field left. -/
theorem offset_eq_or_tails_eq_nil {first second : List Part}
    (shape : List.Forall₂ SameShape first second) {offset other : ℕ} (small : offset < 2 ^ 32)
    (bound : other < 2 ^ 32) (same : heads offset first = heads other second) :
    offset = other ∨ tails first = [] ∧ tails second = [] := by
  induction shape with
  | nil => exact .inr ⟨rfl, rfl⟩
  | @cons one another _ _ here _ ih =>
    cases one <;> cases another
    · exact ih (List.append_inj same here).2
    · exact absurd here id
    · exact absurd here id
    · have offsets : leBytes 4 offset = leBytes 4 other := (List.append_inj same (by simp)).1
      exact .inl (leBytes_inj (small.trans_eq (by norm_num)) (bound.trans_eq (by norm_num)) offsets)

theorem parts_eq {first second : List Part} (shape : List.Forall₂ SameShape first second)
    {offset : ℕ} (fits : offset + (tails first).length < 2 ^ 32)
    (same : heads offset first = heads offset second) (rests : tails first = tails second) :
    first = second := by
  induction shape generalizing offset with
  | nil => rfl
  | @cons one another front back here shape ih =>
    cases one <;> cases another
    · obtain ⟨bytes, heads⟩ := List.append_inj same here
      rw [bytes, ih fits heads rests]
    · exact absurd here id
    · exact absurd here id
    · rename_i bytes others
      have after : heads (offset + bytes.length) front = heads (offset + others.length) back :=
        (List.append_inj same (by simp)).2
      have total : bytes.length + (tails front).length = others.length + (tails back).length := by
        have := congrArg List.length rests
        rwa [tails, tails, List.length_append, List.length_append] at this
      rw [tails, List.length_append] at fits
      -- the next offset tells where this field ends; without one, it ends with the encoding
      have ends : bytes.length = others.length := by
        rcases offset_eq_or_tails_eq_nil shape (by omega) (by omega) after with next | ⟨none, none'⟩
        · omega
        · rw [none, none'] at total
          exact total
      obtain ⟨here, later⟩ := List.append_inj rests ends
      rw [← ends] at after
      rw [here, ih (by omega) after later]

theorem container_inj {first second : List Part} (shape : List.Forall₂ SameShape first second)
    (short : (container first).length < 2 ^ 32) (same : container first = container second) :
    first = second := by
  rw [length_container] at short
  obtain ⟨fixed, rests⟩ := List.append_inj same (by
    rw [length_heads, length_heads, fixedLength_eq shape])
  rw [← fixedLength_eq shape] at fixed
  exact parts_eq shape short fixed rests

end ArcNode.Lib.Ssz
