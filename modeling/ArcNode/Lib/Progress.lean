/-
**Work in committed transactions.**

A `Progress` is what a long operation leaves behind: the states it committed, in order, and the
error that ended it, if any. `crashAt start k` is the state on disk when the operation is cut after
`k` commits. The rules say where the cut of a sequence of two operations falls
(**`crashAt_andThen`**) and that a cut after at least one commit is one of the committed states
(`crashAt_mem`).
-/

import Mathlib

namespace ArcNode.Lib

/-- The states an operation committed and the error that ended it. -/
structure Progress (σ ε : Type*) where
  commits : List σ
  failure : Option ε

namespace Progress

variable {σ τ ε : Type*}

def done : Progress σ ε := ⟨[], none⟩

def commit (state : σ) : Progress σ ε := ⟨[state], none⟩

def fail (error : ε) : Progress σ ε := ⟨[], some error⟩

variable (progress : Progress σ ε) (start : σ)

def last : σ := progress.commits.getLastD start

/-- The state on disk after `count` commits. -/
def crashAt (count : ℕ) : σ :=
  (progress.commits.take count).getLastD start

/-- One operation after the other; an error of the first ends both. -/
def andThen (first : Progress σ ε) (start : σ) (second : σ → Progress σ ε) : Progress σ ε :=
  match first.failure with
  | some error => ⟨first.commits, some error⟩
  | none =>
    ⟨first.commits ++ (second (first.last start)).commits, (second (first.last start)).failure⟩

def map (embed : τ → σ) (progress : Progress τ ε) : Progress σ ε :=
  ⟨progress.commits.map embed, progress.failure⟩

def result : Except ε σ :=
  match progress.failure with
  | some error => .error error
  | none => .ok (progress.last start)

@[simp] theorem last_commit (state start : σ) : (commit state : Progress σ ε).last start = state := by
  simp [last, commit]

@[simp] theorem last_done : (done : Progress σ ε).last start = start := by
  simp [last, done]

theorem last_map (embed : τ → σ) (progress : Progress τ ε) (start : τ) :
    (progress.map embed).last (embed start) = embed (progress.last start) := by
  simp only [last, map, List.getLastD_eq_getLast?, List.getLast?_map, Option.getD_map]

theorem getLastD_append (front back : List σ) (start : σ) :
    (front ++ back).getLastD start = back.getLastD (front.getLastD start) := by
  rcases List.eq_nil_or_concat back with rfl | ⟨init, final, rfl⟩
  · simp
  · simp [← List.append_assoc]

section AndThen

variable {first : Progress σ ε} {start : σ} {second : σ → Progress σ ε}

theorem commits_andThen (succeeds : first.failure = none) : (first.andThen start second).commits =
      first.commits ++ (second (first.last start)).commits := by
  simp only [andThen, succeeds]

theorem failure_andThen (succeeds : first.failure = none) :
    (first.andThen start second).failure = (second (first.last start)).failure := by
  simp only [andThen, succeeds]

theorem last_andThen (succeeds : first.failure = none) : (first.andThen start second).last start =
      (second (first.last start)).last (first.last start) := by
  rw [last, commits_andThen succeeds, getLastD_append]
  rfl

/-- **The cut of two operations falls in the first one, or in the second one that follows it.** -/
theorem crashAt_andThen (succeeds : first.failure = none) (count : ℕ) :
    (first.andThen start second).crashAt start count =
      if count ≤ first.commits.length then first.crashAt start count
      else (second (first.last start)).crashAt (first.last start)
        (count - first.commits.length) := by
  rw [crashAt, commits_andThen succeeds, List.take_append]
  split_ifs with within
  · rw [Nat.sub_eq_zero_of_le within, List.take_zero, List.append_nil]
    rfl
  · rw [getLastD_append, List.take_of_length_le (not_le.mp within).le]
    rfl

end AndThen

@[simp] theorem crashAt_zero : progress.crashAt start 0 = start := by
  simp [crashAt]

theorem crashAt_of_length_le {progress : Progress σ ε} {count : ℕ}
    (past : progress.commits.length ≤ count) (start : σ) :
    progress.crashAt start count = progress.last start := by
  rw [crashAt, List.take_of_length_le past]
  rfl

theorem crashAt_mem {progress : Progress σ ε} {count : ℕ} (positive : 0 < count)
    (some_commit : progress.commits ≠ []) (start : σ) :
    progress.crashAt start count ∈ progress.commits := by
  have nonempty : progress.commits.take count ≠ [] := by
    rw [Ne, List.take_eq_nil_iff]
    rintro (zero | nothing)
    · exact absurd zero positive.ne'
    · exact some_commit nothing
  rw [crashAt, List.getLastD_eq_getLast?, List.getLast?_eq_some_getLast nonempty, Option.getD_some]
  exact List.mem_of_mem_take (List.getLast_mem nonempty)

end Progress

end ArcNode.Lib
