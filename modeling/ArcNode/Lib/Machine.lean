/-
**Runs of a deterministic machine.**

A machine is a step function `σ → ι → σ × ω`: the input carries everything the environment chooses,
the output is what the step shows. `run` is the state after a list of inputs, and `Along step holds
start inputs` says that `holds` is true of every step of that run. The rules are **`run_invariant`**
and **`along_of_invariant`**. Two runs are compared by **`unwinding`**: an observer who selects some
of the inputs sees the same in both, once the other inputs leave its view alone and the selected
ones act alike on equal views.
-/

import Mathlib

namespace ArcNode.Lib

section Machine

variable {σ ι ω : Type*} (step : σ → ι → σ × ω)

def run : σ → List ι → σ
  | state, [] => state
  | state, input :: rest => run (step state input).1 rest

/-- What the steps of a run show, in order. -/
def outputs : σ → List ι → List ω
  | _, [] => []
  | state, input :: rest => (step state input).2 :: outputs (step state input).1 rest

/-- A property of one step holds at every step of a run. -/
def Along (holds : σ → ι → Prop) : σ → List ι → Prop
  | _, [] => True
  | state, input :: rest => holds state input ∧ Along holds (step state input).1 rest

instance Along.decidable (holds : σ → ι → Prop) [∀ state input, Decidable (holds state input)] :
    ∀ (start : σ) (inputs : List ι), Decidable (Along step holds start inputs)
  | _, [] => inferInstanceAs (Decidable True)
  | state, input :: rest =>
    @instDecidableAnd _ _ _ (Along.decidable holds (step state input).1 rest)

variable {step} {Inv : σ → Prop} {meets gives : σ → ι → Prop}

theorem run_append (start : σ) (front back : List ι) :
    run step start (front ++ back) = run step (run step start front) back := by
  induction front generalizing start with
  | nil => rfl
  | cons input rest ih => exact ih _

theorem outputs_append (start : σ) (front back : List ι) : outputs step start (front ++ back) =
      outputs step start front ++ outputs step (run step start front) back := by
  induction front generalizing start with
  | nil => rfl
  | cons input rest ih => exact congrArg _ (ih _)

variable {start : σ}

theorem along_append {front back : List ι} : Along step meets start (front ++ back) ↔
      Along step meets start front ∧ Along step meets (run step start front) back := by
  induction front generalizing start with
  | nil => simp [Along, run]
  | cons input rest ih => simp [Along, run, ih, and_assoc]

theorem Along.and {inputs : List ι} (first : Along step meets start inputs)
    (second : Along step gives start inputs) :
    Along step (fun state input => meets state input ∧ gives state input) start inputs := by
  induction inputs generalizing start with
  | nil => trivial
  | cons input rest ih => exact ⟨⟨first.1, second.1⟩, ih first.2 second.2⟩

/-- **A property kept by every admitted step holds after every admitted run.** -/
theorem run_invariant (keeps : ∀ state input, Inv state → meets state input →
      Inv (step state input).1) {start : σ} {inputs : List ι} (begins : Inv start)
    (admitted : Along step meets start inputs) : Inv (run step start inputs) := by
  induction inputs generalizing start with
  | nil => exact begins
  | cons input rest ih => exact ih (keeps _ _ begins admitted.1) admitted.2

theorem run_kept (keeps : ∀ state input, Inv state → Inv (step state input).1)
    (inputs : List ι) (begins : Inv start) : Inv (run step start inputs) := by
  induction inputs generalizing start with
  | nil => exact begins
  | cons input rest ih => exact ih (keeps _ _ begins)

theorem along_of_invariant (keeps : ∀ state input, Inv state → meets state input →
      Inv (step state input).1)
    (shows : ∀ state input, Inv state → meets state input → gives state input) {inputs : List ι}
    (begins : Inv start)
    (admitted : Along step meets start inputs) : Along step gives start inputs := by
  induction inputs generalizing start with
  | nil => trivial
  | cons input rest ih =>
    exact ⟨shows _ _ begins admitted.1, ih (keeps _ _ begins admitted.1) admitted.2⟩

/-- What holds after every beginning of a run holds along it. -/
theorem along_of_prefixes {holds : σ → Prop} {inputs : List ι}
    (before : ∀ front, front <+: inputs → holds (run step start front)) :
    Along step (fun state _ => holds state) start inputs := by
  induction inputs generalizing start with
  | nil => trivial
  | cons input rest ih =>
    refine ⟨before [] List.nil_prefix, ih fun front beginning => ?_⟩
    exact before (input :: front) (List.cons_prefix_cons.mpr ⟨rfl, beginning⟩)

end Machine

section Memory

variable {σ ι ω μ : Type*} (step : σ → ι → σ × ω) (note : μ → σ → ι → σ × ω → μ)

/-- The machine with a memory beside its state, which each step may update and no step reads. -/
def remembering (state : σ × μ) (input : ι) : (σ × μ) × ω :=
  let result := step state.1 input
  ((result.1, note state.2 state.1 input result), result.2)

theorem run_remembering (start : σ) (memory : μ) (inputs : List ι) :
    (run (remembering step note) (start, memory) inputs).1 = run step start inputs := by
  induction inputs generalizing start memory with
  | nil => rfl
  | cons input rest ih => exact ih _ _

end Memory

section Unwinding

variable {σ ι ω κ : Type*} {step : σ → ι → σ × ω} {select : ι → Bool} {project : ι → κ}
  {View : σ → σ → Prop} {Inv : σ → Prop} {meets : σ → ι → Prop}

/-- What the selected steps of a run show, in order. -/
def outputsOf (step : σ → ι → σ × ω) (select : ι → Bool) : σ → List ι → List ω
  | _, [] => []
  | state, input :: rest =>
    if select input then (step state input).2 :: outputsOf step select (step state input).1 rest
    else outputsOf step select (step state input).1 rest

theorem outputsOf_append (start : σ) (front back : List ι) :
    outputsOf step select start (front ++ back) =
      outputsOf step select start front ++ outputsOf step select (run step start front) back := by
  induction front generalizing start with
  | nil => rfl
  | cons input rest ih =>
    rw [List.cons_append, outputsOf, outputsOf, run, ih]
    split_ifs
    · rw [List.cons_append]
    · rfl

theorem outputsOf_eq_nil {start : σ} {inputs : List ι}
    (none : ∀ input ∈ inputs, select input = false) : outputsOf step select start inputs = [] := by
  induction inputs generalizing start with
  | nil => rfl
  | cons input rest ih =>
    rw [outputsOf, none input List.mem_cons_self, if_neg Bool.false_ne_true]
    exact ih fun other member => none other (List.mem_cons_of_mem _ member)

theorem view_of_unselected (trans : ∀ first second third, View first second →
      View second third → View first third)
    (keeps : ∀ state input, Inv state → meets state input → Inv (step state input).1)
    (stays : ∀ state input, Inv state → meets state input → select input = false →
      View state (step state input).1)
    {other start : σ} {inputs : List ι} (view : View other start) (inv : Inv start)
    (admitted : Along step meets start inputs) (none : inputs.filter select = []) :
    outputsOf step select start inputs = [] ∧ View other (run step start inputs) := by
  induction inputs generalizing start with
  | nil => exact ⟨rfl, view⟩
  | cons input rest ih =>
    have unselected : select input = false := by
      cases chosen : select input with
      | false => rfl
      | true => simp [chosen] at none
    rw [List.filter_cons, unselected, if_neg Bool.false_ne_true] at none
    rw [outputsOf, unselected, if_neg Bool.false_ne_true]
    exact ih (trans _ _ _ view (stays start input inv admitted.1 unselected))
      (keeps start input inv admitted.1) admitted.2 none

/-- **Unwinding.** Two admitted runs with the same selected inputs show the same at these inputs and
end in states with the same view. -/
theorem unwinding (symm : ∀ first second, View first second → View second first)
    (trans : ∀ first second third, View first second → View second third → View first third)
    (keeps : ∀ state input, Inv state → meets state input → Inv (step state input).1)
    (stays : ∀ state input, Inv state → meets state input → select input = false →
      View state (step state input).1)
    (alike : ∀ first second here there, Inv first → Inv second → View first second →
      meets first here → meets second there → select here = true → select there = true →
      project here = project there → (step first here).2 = (step second there).2 ∧
        View (step first here).1 (step second there).1)
    {start start' : σ} {inputs inputs' : List ι} (view : View start start') (inv : Inv start)
    (inv' : Inv start') (admitted : Along step meets start inputs)
    (admitted' : Along step meets start' inputs')
    (same : (inputs.filter select).map project = (inputs'.filter select).map project) :
    outputsOf step select start inputs = outputsOf step select start' inputs' ∧
      View (run step start inputs) (run step start' inputs') := by
  -- the first run is consumed input by input; a selected input waits for its partner in the second
  induction inputs generalizing start start' inputs' with
  | nil =>
    have none : inputs'.filter select = [] := List.map_eq_nil_iff.mp same.symm
    obtain ⟨silent, kept⟩ := view_of_unselected trans keeps stays view inv' admitted' none
    exact ⟨silent.symm, kept⟩
  | cons input rest ih =>
    cases chosen : select input with
    | false =>
      rw [List.filter_cons, chosen, if_neg Bool.false_ne_true] at same
      rw [outputsOf, chosen, if_neg Bool.false_ne_true]
      have moved := symm _ _ (stays start input inv admitted.1 chosen)
      exact ih (trans _ _ _ moved view) (keeps start input inv admitted.1) inv' admitted.2 admitted' same
    | true =>
      rw [List.filter_cons, chosen, if_pos rfl, List.map_cons] at same
      rw [outputsOf, chosen, if_pos rfl]
      induction inputs' generalizing start' with
      | nil => cases same
      | cons input' rest' ih' =>
        cases chosen' : select input' with
        | false =>
          rw [List.filter_cons, chosen', if_neg Bool.false_ne_true] at same
          rw [outputsOf, chosen', if_neg Bool.false_ne_true]
          exact ih' (trans _ _ _ view (stays start' input' inv' admitted'.1 chosen'))
            (keeps start' input' inv' admitted'.1) admitted'.2 same
        | true =>
          rw [List.filter_cons, chosen', if_pos rfl, List.map_cons, List.cons.injEq] at same
          rw [outputsOf, chosen', if_pos rfl]
          obtain ⟨shown, next⟩ := alike start start' input input' inv inv' view admitted.1
            admitted'.1 chosen chosen' same.1
          obtain ⟨later, final⟩ := ih next (keeps start input inv admitted.1)
            (keeps start' input' inv' admitted'.1) admitted.2 admitted'.2 same.2
          exact ⟨by rw [shown, later], final⟩

end Unwinding

end ArcNode.Lib
