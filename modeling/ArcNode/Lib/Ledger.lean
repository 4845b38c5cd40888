/-
**A ledger of coins.**

Holders with balances, a counter of the total supply, and the moves made so far. A `Move` debits a
holder, or nobody when coins are minted, and credits a holder, or nobody when they are burned.
`Step` is one transition: a holder comes alive or is created, a move is posted and a notice of it
published, a created holder without coins is destroyed. Balances lie below a `width` and a credit
wraps around, as a machine word does. From a ledger whose balances, with what was `paid` beforehand,
make up the supply, no credit wraps, no burn exceeds the supply, and a destroyed holder has no coins
(**`Step.balanced`**, **`Balanced.total`**). `Standing` and `Apart` are about one holder: one that
is alive is never destroyed, and one that is blocked is left alone by every move. `Accounted` and
`Told` say that the moves explain every balance and that the notices tell every move.
-/

import Mathlib

namespace ArcNode.Lib

open Relation

/-! ### Moves -/

/-- Coins that leave one holder, or nobody, and reach another, or nobody; `blocked` notes whether
one of the two was blocked at that moment. -/
structure Move (α : Type*) where
  debited : Option α
  credited : Option α
  amount : ℕ
  blocked : Bool
  deriving DecidableEq

section Move

variable {α : Type*} [DecidableEq α]

variable (move : Move α)

namespace Move

def credit (holder : α) : ℕ :=
  if move.credited = some holder then move.amount else 0

def debit (holder : α) : ℕ :=
  if move.debited = some holder then move.amount else 0

end Move

variable (moves : List (Move α))

def credits (holder : α) : ℕ := (moves.map (·.credit holder)).sum

def debits (holder : α) : ℕ := (moves.map (·.debit holder)).sum

def minted : ℕ :=
  (moves.map fun move => if move.debited.isNone then move.amount else 0).sum

def burned : ℕ :=
  (moves.map fun move => if move.credited.isNone then move.amount else 0).sum

omit [DecidableEq α] in
theorem burned_cons :
    burned (move :: moves) = (if move.credited.isNone then move.amount else 0) + burned moves := by
  rw [burned, List.map_cons, List.sum_cons, burned]

omit [DecidableEq α] in
theorem minted_cons :
    minted (move :: moves) = (if move.debited.isNone then move.amount else 0) + minted moves := by
  rw [minted, List.map_cons, List.sum_cons, minted]

theorem credits_cons (holder : α) :
    credits (move :: moves) holder = move.credit holder + credits moves holder := by
  rw [credits, List.map_cons, List.sum_cons, credits]

theorem debits_cons (holder : α) :
    debits (move :: moves) holder = move.debit holder + debits moves holder := by
  rw [debits, List.map_cons, List.sum_cons, debits]

theorem credits_reverse (holder : α) : credits moves.reverse holder = credits moves holder := by
  rw [credits, List.map_reverse, List.sum_reverse, credits]

theorem debits_reverse (holder : α) : debits moves.reverse holder = debits moves holder := by
  rw [debits, List.map_reverse, List.sum_reverse, debits]

variable [Fintype α]

theorem sum_ite_some (target : Option α) (amount : ℕ) :
    (∑ holder, if target = some holder then amount else 0) =
      if target.isNone then 0 else amount := by
  cases target with
  | none | some chosen => simp

/-- **What the holders received and what was burned** is everything that moved. -/
theorem sum_credits_add_burned (moves : List (Move α)) :
    (∑ holder, credits moves holder) + burned moves = (moves.map Move.amount).sum := by
  induction moves with
  | nil => simp [credits, burned]
  | cons move rest ih =>
    have first : ∑ holder, move.credit holder = if move.credited.isNone then 0 else move.amount :=
      sum_ite_some move.credited move.amount
    simp only [credits_cons, Finset.sum_add_distrib, first, burned_cons, List.map_cons,
      List.sum_cons]
    split_ifs <;> omega

/-- **What the holders gave and what was minted** is everything that moved. -/
theorem sum_debits_add_minted (moves : List (Move α)) :
    (∑ holder, debits moves holder) + minted moves = (moves.map Move.amount).sum := by
  induction moves with
  | nil => simp [debits, minted]
  | cons move rest ih =>
    have first : ∑ holder, move.debit holder = if move.debited.isNone then 0 else move.amount :=
      sum_ite_some move.debited move.amount
    simp only [debits_cons, Finset.sum_add_distrib, first, minted_cons, List.map_cons,
      List.sum_cons]
    split_ifs <;> omega

end Move

/-! ### Ledgers and their steps -/

/-- What is published about a move; nobody is named by zero. -/
structure Notice (α : Type*) where
  sender : α
  receiver : α
  amount : ℕ
  deriving DecidableEq

def Move.notice {α : Type*} [Zero α] (move : Move α) : Notice α :=
  ⟨move.debited.getD 0, move.credited.getD 0, move.amount⟩

/-- Balances, the supply counter, the standing of every holder, and the moves and notices so far,
newest first. A holder is alive for good, may be created while the ledger runs, and may then be
destroyed. -/
structure Ledger (α : Type*) where
  balance : α → ℕ
  supply : ℕ
  alive : α → Bool
  created : α → Bool
  destroyed : α → Bool
  blocked : α → Bool
  moves : List (Move α)
  notices : List (Notice α)

namespace Ledger

section Steps

variable {α : Type*} [DecidableEq α] [Zero α]

variable (ledger : Ledger α)

def bars (debited credited : Option α) : Bool :=
  debited.any ledger.blocked || credited.any ledger.blocked

/-- A move is carried out: the balances wrap around at `width`, the supply counter does not go below
zero. -/
def post (width : ℕ) (move : Move α) (ledger : Ledger α) : Ledger α where
  balance holder := (ledger.balance holder + move.credit holder - move.debit holder) % width
  supply :=
    if move.debited.isNone then ledger.supply + move.amount
    else if move.credited.isNone then ledger.supply - move.amount
    else ledger.supply
  alive := ledger.alive
  created := ledger.created
  destroyed := ledger.destroyed
  blocked := ledger.blocked
  moves := move :: ledger.moves
  notices := ledger.notices

def announce (notice : Notice α) (ledger : Ledger α) : Ledger α :=
  { ledger with notices := notice :: ledger.notices }

/-- What is checked before a move: `policed` says that blocked parties are turned away. -/
structure Admits (width : ℕ) (policed : Prop) (ledger : Ledger α) (move : Move α) : Prop where
  nonzero : move.amount ≠ 0
  distinct : move.notice.sender ≠ move.notice.receiver
  funded : ∀ holder, move.debited = some holder → move.amount ≤ ledger.balance holder
  standing : ∀ holder, move.credited = some holder → ledger.destroyed holder = false
  fits : move.debited = none → ledger.supply + move.amount < width
  noted : move.blocked = ledger.bars move.debited move.credited
  unblocked : policed → move.blocked = false

omit [DecidableEq α] in
theorem Admits.debited_ne_credited {width : ℕ} {policed : Prop} {ledger : Ledger α} {move : Move α}
    (admits : ledger.Admits width policed move) : move.debited ≠ move.credited := by
  intro same
  refine admits.distinct ?_
  simp only [Move.notice, same]

theorem Admits.debit_le {width : ℕ} {policed : Prop} {ledger : Ledger α} {move : Move α}
    (admits : ledger.Admits width policed move) (holder : α) :
    move.debit holder ≤ ledger.balance holder := by
  unfold Move.debit
  split_ifs with debited
  · exact admits.funded holder debited
  · exact Nat.zero_le _

/-- One transition of a ledger; none of them changes who is blocked. -/
inductive Step (width : ℕ) (policed : Prop) : Ledger α → Ledger α → Prop where
  | awake {ledger : Ledger α} (holder : α) : Step width policed ledger
        { ledger with alive := Function.update ledger.alive holder true }
  | create {ledger : Ledger α} (holder : α) (fresh : ledger.alive holder = false) :
      Step width policed ledger
        { ledger with
          alive := Function.update ledger.alive holder true
          created := Function.update ledger.created holder true }
  | move {ledger : Ledger α} (move : Move α) (admits : ledger.Admits width policed move) :
      Step width policed ledger ((ledger.post width move).announce move.notice)
  | destroy {ledger : Ledger α} (holder : α) (created : ledger.created holder = true)
      (empty : ledger.balance holder = 0) :
      Step width policed ledger
        { ledger with destroyed := Function.update ledger.destroyed holder true }

abbrev Steps (width : ℕ) (policed : Prop) : Ledger α → Ledger α → Prop :=
  ReflTransGen (Step width policed)

/-- Transitions, and then possibly a change of who is blocked. -/
def Turn (width : ℕ) (policed : Prop) (before after : Ledger α) : Prop :=
  ∃ middle blocked, Steps width policed before middle ∧ after = { middle with blocked := blocked }

variable {width : ℕ} {policed : Prop} {before after : Ledger α}

theorem Steps.turn (steps : Steps width policed before after) : Turn width policed before after :=
  ⟨after, after.blocked, steps, rfl⟩

theorem Steps.trans_turn {middle : Ledger α} (steps : Steps width policed before middle)
    (turn : Turn width policed middle after) : Turn width policed before after := by
  obtain ⟨last, blocked, more, rfl⟩ := turn
  exact ⟨last, blocked, steps.trans more, rfl⟩

theorem Step.blocked_eq (step : Step width policed before after) :
    after.blocked = before.blocked := by
  cases step <;> rfl

theorem Steps.blocked_eq (steps : Steps width policed before after) :
    after.blocked = before.blocked := by
  induction steps with
  | refl => rfl
  | tail _ step ih => rw [step.blocked_eq, ih]

theorem Turn.keeps {P : Ledger α → Prop} (turn : Turn width policed before after)
    (step : ∀ {before after}, Step width policed before after → P before → P after)
    (blind : ∀ ledger blocked, P ledger → P { ledger with blocked := blocked })
    (holds : P before) : P after := by
  obtain ⟨middle, blocked, steps, rfl⟩ := turn
  refine blind _ _ ?_
  induction steps with
  | refl => exact holds
  | tail _ last ih => exact step last ih

/-! ### One holder -/

/-- Alive from before, so never created and never destroyed. -/
def Standing (holder : α) (ledger : Ledger α) : Prop :=
  ledger.alive holder = true ∧ ledger.created holder = false ∧ ledger.destroyed holder = false

variable {holder : α}

theorem Step.standing (step : Step width policed before after)
    (stands : Standing holder before) : Standing holder after := by
  obtain ⟨alive, created, destroyed⟩ := stands
  cases step with
  | awake other =>
    refine ⟨?_, created, destroyed⟩
    by_cases same : holder = other
    · simp [same]
    · simpa [Function.update_of_ne same] using alive
  | create other fresh =>
    have apart : holder ≠ other := by
      rintro rfl
      rw [alive] at fresh
      cases fresh
    simpa [Standing, Function.update_of_ne apart] using ⟨alive, created, destroyed⟩
  | move move admits => exact ⟨alive, created, destroyed⟩
  | destroy other born empty =>
    have apart : holder ≠ other := by
      rintro rfl
      rw [created] at born
      cases born
    simpa [Standing, Function.update_of_ne apart] using ⟨alive, created, destroyed⟩

theorem Turn.standing (turn : Turn width policed before after) (stands : Standing holder before) :
    Standing holder after :=
  turn.keeps (fun step => step.standing) (fun _ _ standing => standing) stands

/-- A holder that took part in no move: its balance is what it was, and it was destroyed only if it
had none. -/
structure Apart (holder : α) (value : ℕ) (ledger : Ledger α) : Prop where
  uninvolved : ∀ move ∈ ledger.moves, move.debited ≠ some holder ∧ move.credited ≠ some holder
  balance : ledger.balance holder = value
  emptied : ledger.destroyed holder = true → value = 0

theorem Step.apart {value : ℕ} (step : Step width policed before after)
    (police : policed) (small : value < width) (barred : before.blocked holder = true)
    (apart : Apart holder value before) : Apart holder value after := by
  obtain ⟨uninvolved, balance, emptied⟩ := apart
  cases step with
  | awake other | create other fresh => exact ⟨uninvolved, balance, emptied⟩
  | move move admits =>
    have clear := admits.noted.symm.trans (admits.unblocked police)
    rw [bars, Bool.or_eq_false_iff] at clear
    have notDebited : move.debited ≠ some holder := by
      intro same
      rw [same, Option.any_some, barred] at clear
      cases clear.1
    have notCredited : move.credited ≠ some holder := by
      intro same
      rw [same, Option.any_some, barred] at clear
      cases clear.2
    refine ⟨?_, ?_, emptied⟩
    · intro other member
      rcases List.mem_cons.mp member with rfl | earlier
      · exact ⟨notDebited, notCredited⟩
      · exact uninvolved other earlier
    · simp only [announce, post, Move.credit, Move.debit, if_neg notDebited, if_neg notCredited,
        balance, add_zero, Nat.sub_zero, Nat.mod_eq_of_lt small]
  | destroy other born empty =>
    refine ⟨uninvolved, balance, ?_⟩
    intro destroyed
    by_cases same : holder = other
    · rw [← balance, same]
      exact empty
    · exact emptied (by simpa [Function.update_of_ne same] using destroyed)

/-- **A blocked holder is left alone** by a turn of a ledger that turns blocked parties away. -/
theorem Turn.apart {value : ℕ} (turn : Turn width policed before after)
    (police : policed) (small : value < width) (barred : before.blocked holder = true)
    (apart : Apart holder value before) : Apart holder value after := by
  obtain ⟨middle, blocked, steps, rfl⟩ := turn
  have kept : Apart holder value middle := by
    induction steps with
    | refl => exact apart
    | tail front last ih =>
      have still := (Steps.blocked_eq front).symm ▸ barred
      exact last.apart police small still ih
  exact ⟨kept.uninvolved, kept.balance, kept.emptied⟩

/-- Every move so far turned blocked parties away. -/
def Clean : Prop := ∀ move ∈ ledger.moves, move.blocked = false

theorem Step.clean (step : Step width policed before after) (police : policed)
    (clean : Clean before) : Clean after := by
  cases step with
  | awake _ | create _ _ => exact clean
  | move move admits =>
    intro other member
    rcases List.mem_cons.mp member with rfl | earlier
    · exact admits.unblocked police
    · exact clean other earlier
  | destroy _ _ _ => exact clean

/-! ### All holders -/

/-- The notices tell the moves, in their order; none is of nothing or from a holder to itself. -/
structure Told (ledger : Ledger α) : Prop where
  notices : ledger.notices = ledger.moves.map Move.notice
  proper : ∀ move ∈ ledger.moves, move.amount ≠ 0 ∧ move.notice.sender ≠ move.notice.receiver

theorem Step.told (step : Step width policed before after) (told : Told before) : Told after := by
  obtain ⟨notices, proper⟩ := told
  cases step with
  | awake _ | create _ _ => exact ⟨notices, proper⟩
  | move move admits =>
    refine ⟨?_, ?_⟩
    · simp only [announce, post, List.map_cons, notices]
    · intro other member
      rcases List.mem_cons.mp member with rfl | earlier
      · exact ⟨admits.nonzero, admits.distinct⟩
      · exact proper other earlier
  | destroy _ _ _ => exact ⟨notices, proper⟩

def received (notices : List (Notice α)) (holder : α) : ℕ :=
  (notices.map fun notice => if notice.receiver = holder then notice.amount else 0).sum

def sent (notices : List (Notice α)) (holder : α) : ℕ :=
  (notices.map fun notice => if notice.sender = holder then notice.amount else 0).sum

omit [DecidableEq α] in
theorem getD_eq_iff {party : Option α} (someone : holder ≠ 0) :
    party.getD 0 = holder ↔ party = some holder := by
  cases party with
  | none => exact ⟨fun nobody => (someone nobody.symm).elim, fun none => nomatch none⟩
  | some chosen => exact Option.some_inj.symm

theorem received_notices (someone : holder ≠ 0) (moves : List (Move α)) :
    received (moves.map Move.notice) holder = credits moves holder := by
  unfold received credits
  rw [List.map_map]
  refine congrArg List.sum (List.map_congr_left fun move _ => ?_)
  simp only [Function.comp_apply, Move.notice, Move.credit, getD_eq_iff someone]

theorem sent_notices (someone : holder ≠ 0) (moves : List (Move α)) :
    sent (moves.map Move.notice) holder = debits moves holder := by
  unfold sent debits
  rw [List.map_map]
  refine congrArg List.sum (List.map_congr_left fun move _ => ?_)
  simp only [Function.comp_apply, Move.notice, Move.debit, getD_eq_iff someone]

def Emptied : Prop :=
  ∀ holder, ledger.destroyed holder = true → ledger.balance holder = 0

theorem Step.emptied (step : Step width policed before after) (emptied : Emptied before) :
    Emptied after := by
  cases step with
  | awake _ | create _ _ => exact emptied
  | move move admits =>
    intro holder destroyed
    have empty := emptied holder destroyed
    have nothing : move.credit holder = 0 := by
      unfold Move.credit
      rw [if_neg]
      intro credited
      have standing := admits.standing holder credited
      rw [show before.destroyed holder = true from destroyed] at standing
      cases standing
    show (before.balance holder + move.credit holder - move.debit holder) % width = 0
    rw [empty, nothing, Nat.zero_add, Nat.zero_sub, Nat.zero_mod]
  | destroy other _ empty =>
    intro holder destroyed
    by_cases same : holder = other
    · rw [same]
      exact empty
    · exact emptied holder (by simpa [Function.update_of_ne same] using destroyed)

/-- Every balance is what it was at the start, plus what came in, minus what went out, up to the
width of a balance. -/
def Accounted (width : ℕ) (base : α → ℕ) (ledger : Ledger α) : Prop :=
  ∀ holder, ledger.balance holder + debits ledger.moves holder ≡
    base holder + credits ledger.moves holder [MOD width]

theorem Step.accounted {base : α → ℕ} (step : Step width policed before after)
    (accounted : Accounted width base before) : Accounted width base after := by
  cases step with
  | awake _ | create _ _ => exact accounted
  | move move admits =>
    intro holder
    have below := admits.debit_le holder
    have wrapped : (before.balance holder + move.credit holder - move.debit holder) % width +
        debits (move :: before.moves) holder ≡ before.balance holder + move.credit holder -
        move.debit holder + debits (move :: before.moves) holder [MOD width] :=
      (Nat.mod_modEq _ _).add_right _
    refine wrapped.trans ?_
    have moved : before.balance holder + move.credit holder - move.debit holder +
        debits (move :: before.moves) holder =
        before.balance holder + debits before.moves holder + move.credit holder := by
      rw [debits_cons]
      omega
    have received : base holder + credits (move :: before.moves) holder =
        base holder + credits before.moves holder + move.credit holder := by
      rw [credits_cons]
      omega
    show _ ≡ base holder + credits (move :: before.moves) holder [MOD width]
    rw [moved, received]
    exact (accounted holder).add_right _
  | destroy _ _ _ => exact accounted

end Steps

/-! ### Conservation -/

section Conservation

variable {α : Type*} [DecidableEq α] {width : ℕ} {policed : Prop} {base : α → ℕ} {start paid : ℕ}
  {before after : Ledger α}

/-- Every balance is what it was at the start, plus what came in, minus what went out; the supply is
what it was, plus what was minted, minus what was burned; the destroyed hold nothing. -/
structure Balanced (width : ℕ) (base : α → ℕ) (start : ℕ) (ledger : Ledger α) : Prop where
  accounts : ∀ holder, ledger.balance holder + debits ledger.moves holder =
    base holder + credits ledger.moves holder
  counted : ledger.supply + burned ledger.moves = start + minted ledger.moves
  fits : ledger.supply < width
  emptied : Emptied ledger

variable [Fintype α] (covered : (∑ holder, base holder) + paid = start)

include covered

/-- **The balances make up the supply**, but for what was paid beforehand. -/
theorem Balanced.total (balanced : Balanced width base start before) :
    (∑ holder, before.balance holder) + paid = before.supply := by
  have summed : (∑ holder, before.balance holder) + ∑ holder, debits before.moves holder =
      (∑ holder, base holder) + ∑ holder, credits before.moves holder := by
    rw [← Finset.sum_add_distrib, ← Finset.sum_add_distrib]
    exact Finset.sum_congr rfl fun holder _ => balanced.accounts holder
  have received := sum_credits_add_burned before.moves
  have given := sum_debits_add_minted before.moves
  have counted := balanced.counted
  omega

theorem Balanced.balance_le (balanced : Balanced width base start before) (holder : α) :
    before.balance holder ≤ before.supply := by
  have total := balanced.total covered
  have part := Finset.single_le_sum (fun other _ => Nat.zero_le (before.balance other))
    (Finset.mem_univ holder)
  omega

theorem Balanced.two_balances_le (balanced : Balanced width base start before)
    {first second : α} (apart : first ≠ second) :
    before.balance first + before.balance second ≤ before.supply := by
  have total := balanced.total covered
  have pair : before.balance first + before.balance second ≤ ∑ holder, before.balance holder := by
    rw [← Finset.sum_pair apart]
    exact Finset.sum_le_univ_sum_of_nonneg fun _ => Nat.zero_le _
  omega

variable [Zero α]

/-- An admitted move wraps no balance. -/
theorem Balanced.credit_lt (balanced : Balanced width base start before) {move : Move α}
    (admits : before.Admits width policed move) (holder : α) :
    before.balance holder + move.credit holder < width := by
  have own := balanced.balance_le covered holder
  have fits := balanced.fits
  unfold Move.credit
  split_ifs with credited
  · cases source : move.debited with
    | none =>
      have := admits.fits source
      omega
    | some payer =>
      have apart : payer ≠ holder := by
        rintro rfl
        exact admits.debited_ne_credited (source.trans credited.symm)
      have funded := admits.funded payer source
      have both := balanced.two_balances_le covered apart
      omega
  · omega

theorem Balanced.post (balanced : Balanced width base start before) {move : Move α}
    (admits : before.Admits width policed move) :
    Balanced width base start (before.post width move) := by
  have moved : ∀ holder, (before.post width move).balance holder =
      before.balance holder + move.credit holder - move.debit holder := by
    intro holder
    have := balanced.credit_lt covered admits holder
    exact Nat.mod_eq_of_lt (by omega)
  have counted := balanced.counted
  have fits := balanced.fits
  refine ⟨?_, ?_, ?_, ?_⟩
  · intro holder
    have own := balanced.accounts holder
    have below := admits.debit_le holder
    rw [moved]
    show _ + debits (move :: before.moves) holder = base holder + credits (move :: before.moves) holder
    rw [debits_cons, credits_cons]
    omega
  · show (if move.debited.isNone then before.supply + move.amount
      else if move.credited.isNone then before.supply - move.amount else before.supply) +
      burned (move :: before.moves) = start + minted (move :: before.moves)
    rw [burned_cons, minted_cons]
    cases source : move.debited with
    | none =>
      have given : move.credited ≠ none := fun nobody =>
        admits.debited_ne_credited (source.trans nobody.symm)
      obtain ⟨receiver, received⟩ := Option.ne_none_iff_exists'.mp given
      simp only [received, Option.isNone_none, Option.isNone_some, if_true, Bool.false_eq_true,
        if_false]
      omega
    | some payer =>
      have funded := (admits.funded payer source).trans (balanced.balance_le covered payer)
      cases target : move.credited with
      | none =>
        simp only [Option.isNone_none, Option.isNone_some, if_true, Bool.false_eq_true, if_false]
        omega
      | some receiver =>
        simp only [Option.isNone_some, Bool.false_eq_true, if_false]
        omega
  · show (if move.debited.isNone then before.supply + move.amount
      else if move.credited.isNone then before.supply - move.amount else before.supply) < width
    cases source : move.debited with
    | none =>
      simp only [Option.isNone_none, if_true]
      exact admits.fits source
    | some payer =>
      simp only [Option.isNone_some, Bool.false_eq_true, if_false]
      split_ifs <;> omega
  · exact (Step.move move admits).emptied balanced.emptied

theorem Step.balanced (step : Step width policed before after)
    (balanced : Balanced width base start before) : Balanced width base start after := by
  have emptied := step.emptied balanced.emptied
  cases step with
  | awake _ | create _ _ => exact ⟨balanced.accounts, balanced.counted, balanced.fits, emptied⟩
  | move _ admits =>
    obtain ⟨accounts, counted, fits, -⟩ := balanced.post covered admits
    exact ⟨accounts, counted, fits, emptied⟩
  | destroy _ _ _ => exact ⟨balanced.accounts, balanced.counted, balanced.fits, emptied⟩

end Conservation

end Ledger

end ArcNode.Lib
