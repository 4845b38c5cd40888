/-
**Programs that change a state and may fail.**

A program is a function `σ → Except ε (α × σ)`. `Ensures program start post` is its specification at
one start state: if the program does not fail there, `post` holds of what it returns and of the
state it leaves. There is one rule per way to build a program; **`ensures_bind`** chains them, so
that a program written as a sequence of calls is verified by the specifications of the calls.
-/

import Mathlib

namespace ArcNode.Lib

section Except

variable {ε α β : Type} {first : Except ε α}

theorem bind_eq_ok {next : α → Except ε β} {result : β} :
    first.bind next = .ok result ↔ ∃ value, first = .ok value ∧ next value = .ok result := by
  cases first with
  | error error | ok value => simp [Except.bind]

theorem bind_eq_error {next : α → Except ε β} {error : ε} :
    first.bind next = .error error ↔
      first = .error error ∨ ∃ value, first = .ok value ∧ next value = .error error := by
  cases first with
  | error other | ok value => simp [Except.bind]

theorem map_eq_ok {next : α → β} {result : β} :
    first.map next = .ok result ↔ ∃ value, first = .ok value ∧ next value = result := by
  cases first with
  | error error | ok value => simp [Except.map]

end Except

section Program

variable {σ ε α β : Type}

/-- If the program succeeds, its value and its final state meet `post`. -/
def Ensures (program : StateT σ (Except ε) α) (start : σ) (post : α → σ → Prop) : Prop :=
  ∀ value final, program.run start = .ok (value, final) → post value final

/-- Go on only under a condition. -/
def require (condition : Prop) [Decidable condition] (failure : σ → ε) : StateT σ (Except ε) Unit :=
  fun state => if condition then .ok ((), state) else .error (failure state)

variable {program : StateT σ (Except ε) α} {next : α → StateT σ (Except ε) β} {start : σ}
  {post weaker : α → σ → Prop} {goal : β → σ → Prop}

theorem Ensures.mono (ensures : Ensures program start post)
    (implies : ∀ value final, post value final → weaker value final) :
    Ensures program start weaker :=
  fun value final succeeded => implies value final (ensures value final succeeded)

theorem ensures_pure {value : α} (holds : post value start) :
    Ensures (pure value : StateT σ (Except ε) α) start post := by
  intro value' final succeeded
  cases succeeded
  exact holds

theorem ensures_bind
    (first : Ensures program start fun value middle => Ensures (next value) middle goal) :
    Ensures (program >>= next) start goal := by
  intro value final succeeded
  rw [StateT.run_bind] at succeeded
  cases ran : program.run start with
  | error failure =>
    rw [ran] at succeeded
    cases succeeded
  | ok result =>
    rw [ran] at succeeded
    exact first result.1 result.2 ran value final succeeded

theorem ensures_get {post : σ → σ → Prop} (holds : post start start) :
    Ensures (get : StateT σ (Except ε) σ) start post := by
  intro value final succeeded
  cases succeeded
  exact holds

theorem ensures_set {state : σ} {post : PUnit → σ → Prop} (holds : post ⟨⟩ state) :
    Ensures (set state : StateT σ (Except ε) PUnit) start post := by
  intro value final succeeded
  cases succeeded
  exact holds

theorem ensures_modify {change : σ → σ} {post : Unit → σ → Prop} (holds : post () (change start)) :
    Ensures (modify change : StateT σ (Except ε) Unit) start post := by
  intro value final succeeded
  cases succeeded
  exact holds

theorem ensures_require {condition : Prop} [Decidable condition] {failure : σ → ε}
    {post : Unit → σ → Prop} (holds : condition → post () start) :
    Ensures (require condition failure) start post := by
  intro value final succeeded
  change (if condition then Except.ok ((), start) else .error (failure start)) =
    .ok (value, final) at succeeded
  split_ifs at succeeded with met
  cases succeeded
  exact holds met

end Program

section Focus

variable {σ τ ε α : Type}

/-- A program on a part of the state. -/
def focus (part : σ → τ) (put : τ → σ → σ) (program : StateT τ (Except ε) α) :
    StateT σ (Except ε) α := fun state =>
  (program.run (part state)).map fun result => (result.1, put result.2 state)

theorem ensures_focus {part : σ → τ} {put : τ → σ → σ} {program : StateT τ (Except ε) α} {start : σ}
    {post : α → σ → Prop}
    (inner : Ensures program (part start) fun value final => post value (put final start)) :
    Ensures (focus part put program) start post := by
  intro value final succeeded
  dsimp only [StateT.run, focus] at succeeded
  cases ran : program (part start) with
  | error failure =>
    rw [ran] at succeeded
    cases succeeded
  | ok result =>
    rw [ran] at succeeded
    cases succeeded
    exact inner result.1 result.2 ran

end Focus

end ArcNode.Lib
