/-
**Journals that make the steps of a ledger.**

`Follows` says that a journal grew and that its ledger made steps, `Turns` that it made steps and
then possibly changed the blocklist. A payment is made by `transferLoaded`, by the endowment of a
created account and by the sweep of SELFDESTRUCT; each is one posted move (`transferMove`), which is
a step of the ledger once its log is written and if the checks before it were made
(**`step_transfer`**).
-/

import Mathlib
import ArcNode.Evm.View

namespace ArcNode.Evm

open ArcNode.Lib ArcNode.Lib.Journal ArcNode.Types

/-- From Zero7 a blocked party is turned away on every path. -/
def Policed (env : Env) : Prop := env.flags.isActive .zero7 = true

/-! ### Following a ledger -/

/-- `newer` is `older` after writes that make steps of the ledger. -/
structure Follows (env : Env) (older newer : EvmJournal) : Prop where
  grown : Extends older newer
  steps : Ledger.Steps (2 ^ 256) (Policed env) (view env.hashes older) (view env.hashes newer)

/-- `newer` is `older` after writes that make steps and may then change the blocklist. -/
structure Turns (env : Env) (older newer : EvmJournal) : Prop where
  grown : Extends older newer
  turn : Ledger.Turn (2 ^ 256) (Policed env) (view env.hashes older) (view env.hashes newer)

section Follows

variable {env : Env} {older newer latest : EvmJournal}

theorem Silent.follows (silent : Silent env.hashes older newer) : Follows env older newer := by
  refine ⟨silent.grown, ?_⟩
  rw [silent.seen]

theorem Follows.refl (journal : EvmJournal) : Follows env journal journal :=
  (Silent.refl journal).follows

theorem Follows.turns (follows : Follows env older newer) : Turns env older newer :=
  ⟨follows.grown, follows.steps.turn⟩

theorem Follows.trans_turns (first : Follows env older newer) (second : Turns env newer latest) :
    Turns env older latest :=
  ⟨first.grown.trans second.grown, Ledger.Steps.trans_turn first.steps second.turn⟩

theorem Turns.trans_silent (first : Turns env older newer)
    (second : Silent env.hashes newer latest) : Turns env older latest := by
  refine ⟨first.grown.trans second.grown, ?_⟩
  rw [second.seen]
  exact first.turn

end Follows

/-! ### Transfers -/

section Transfers

variable {hashes : Hashes}

variable (ledger : Ledger Address)

/-- The move that a transfer makes; one to oneself or of nothing makes none. -/
def transferMove (sender receiver : Address) (amount : U256) : Option (Move Address) :=
  if sender = receiver ∨ amount = 0 then none
  else some ⟨some sender, some receiver, amount.val, ledger.bars (some sender) (some receiver)⟩

/-- A ledger after an optional move, of which no notice was given yet. -/
def paying : Option (Move Address) → Ledger Address
  | none => ledger
  | some move => ledger.post (2 ^ 256) move

/-- A ledger after an optional move and its notice. -/
def paid : Option (Move Address) → Ledger Address
  | none => ledger
  | some move => (ledger.post (2 ^ 256) move).announce move.notice

theorem extends_modifyAccount (address : Address) (change : Account → Account)
    (journal : EvmJournal) : Extends journal (modifyAccount address change journal) :=
  extends_write _ _ _

theorem extends_moveCoins (sender receiver : Address) (amount : U256) (journal : EvmJournal) :
    Extends journal (moveCoins hashes sender receiver amount journal) := by
  unfold moveCoins noteMove credit debit
  exact (extends_record _ _).trans
    ((extends_modifyAccount _ _ _).trans (extends_modifyAccount _ _ _))

variable {amount : U256}

theorem transferLoaded_view {sender receiver : Address}
    {journal after : EvmJournal} (succeeded : transferLoaded hashes sender receiver amount journal =
      .ok after) :
    Extends journal after ∧ view hashes after =
        paying (view hashes journal) (transferMove (view hashes journal) sender receiver amount) ∧
      amount.val ≤ (view hashes journal).balance sender := by
  unfold transferLoaded at succeeded
  by_cases same : sender = receiver
  · rw [if_pos same] at succeeded
    split_ifs at succeeded with poor
    rw [← Except.ok.inj succeeded, transferMove, if_pos (Or.inl same)]
    exact ⟨Extends.refl journal, rfl, Fin.le_def.mp (not_lt.mp poor)⟩
  · rw [if_neg same] at succeeded
    by_cases nothing : amount = 0
    · rw [if_pos nothing] at succeeded
      have touched : Silent hashes journal (touchAccount receiver journal) :=
        silent_touchAccount receiver journal
      rw [← Except.ok.inj succeeded, transferMove, if_pos (Or.inr nothing)]
      exact ⟨touched.grown, touched.seen, by simp [nothing]⟩
    · rw [if_neg nothing] at succeeded
      split_ifs at succeeded with poor fits
      have enough : amount.val ≤ (view hashes journal).balance sender :=
        Fin.le_def.mp (not_lt.mp poor)
      rw [← Except.ok.inj succeeded, transferMove, if_neg (not_or.mpr ⟨same, nothing⟩)]
      exact ⟨extends_moveCoins _ _ _ _, view_moveCoins hashes same enough, enough⟩

/-- What is checked of the two parties before a payment. -/
structure Payable (policed : Prop) (ledger : Ledger Address) (sender receiver : Address) : Prop where
  standing : ledger.destroyed receiver = false
  unblocked : policed → ledger.blocked sender = false ∧ ledger.blocked receiver = false

/-- **A checked payment and its log are one step of the ledger.** -/
theorem step_transfer {policed : Prop} {ledger : Ledger Address} {sender receiver : Address}
    (enough : amount.val ≤ ledger.balance sender)
    (checked : sender ≠ receiver → amount ≠ 0 → Payable policed ledger sender receiver) :
    Ledger.Steps (2 ^ 256) policed ledger
      (paid ledger (transferMove ledger sender receiver amount)) := by
  unfold transferMove
  split_ifs with idle
  · exact .refl
  · obtain ⟨apart, something⟩ := not_or.mp idle
    obtain ⟨standing, unblocked⟩ := checked apart something
    refine .single (Ledger.Step.move _ ⟨?_, apart, ?_, ?_, ?_, rfl, ?_⟩)
    · intro nothing
      exact something (Fin.ext nothing)
    · intro holder debited
      rw [← Option.some.inj debited]
      exact enough
    · intro holder credited
      rw [← Option.some.inj credited]
      exact standing
    · intro nobody
      cases nobody
    · intro police
      obtain ⟨first, second⟩ := unblocked police
      simp [Ledger.bars, first, second]

/-! ### Created accounts -/

/-- A ledger in which a holder was created. -/
def bear (holder : Address) : Ledger Address :=
  { ledger with
    alive := Function.update ledger.alive holder true
    created := Function.update ledger.created holder true }

/-- The two precompiles that keep the supply and the blocklist are alive. -/
def Deployed : Prop :=
  ledger.alive nativeCoinAuthorityAddress = true ∧ ledger.alive nativeCoinControlAddress = true

theorem view_bear {target : Address} (notAuthority : target ≠ nativeCoinAuthorityAddress)
    (notControl : target ≠ nativeCoinControlAddress) (journal : EvmJournal) :
    view hashes (modifyAccount target (fun account =>
      { account with
        nonce := 1, code := .empty, storage := fun _ => 0, original := fun _ => 0
        touched := true, created := true }) journal) = bear (view hashes journal) target := by
  rw [view_modifyAccount]
  simp only [bear, Ledger.mk.injEq, if_neg notAuthority, if_neg notControl, true_and, and_true]
  exact ⟨Function.update_eq_self _ _, rfl, Function.update_eq_self _ _⟩

/-- Not one of the two accounts whose storage the ledger reads. -/
def Unreserved (address : Address) : Prop :=
  address ≠ nativeCoinAuthorityAddress ∧ address ≠ nativeCoinControlAddress

theorem Deployed.unreserved {ledger : Ledger Address} (deployed : Deployed ledger)
    {address : Address} (dead : ledger.alive address = false) : Unreserved address := by
  refine ⟨?_, ?_⟩
  · rintro rfl
    rw [deployed.1] at dead
    cases dead
  · rintro rfl
    rw [deployed.2] at dead
    cases dead

theorem createAccount_view {caller target : Address} {value : U256} {journal after : EvmJournal}
    (deployed : Deployed (view hashes journal)) (awake : (view hashes journal).alive caller = true)
    (enough : value.val ≤ (view hashes journal).balance caller)
    (succeeded : createAccount hashes caller target value journal = .ok after) :
    Extends journal after ∧ (view hashes journal).alive target = false ∧ caller ≠ target ∧
      view hashes after = paying (bear (view hashes journal) target)
        (transferMove (view hashes journal) caller target value) := by
  unfold createAccount at succeeded
  by_cases taken : (journal.cells target).code ≠ .empty ∨ (journal.cells target).nonce ≠ 0
  · rw [if_pos taken] at succeeded
    cases succeeded
  rw [if_neg taken] at succeeded
  have dead : (view hashes journal).alive target = false := by
    simpa [view, ledger] using (not_or.mp taken).2
  have apart : caller ≠ target := by
    rintro rfl
    rw [awake] at dead
    cases dead
  obtain ⟨notAuthority, notControl⟩ := deployed.unreserved dead
  have born := @view_bear hashes target notAuthority notControl journal
  by_cases nothing : value = 0
  · rw [if_pos nothing] at succeeded
    rw [← Except.ok.inj succeeded, transferMove, if_pos (Or.inr nothing)]
    exact ⟨extends_modifyAccount _ _ _, dead, apart, born⟩
  · rw [if_neg nothing] at succeeded
    split_ifs at succeeded with fits
    rw [← Except.ok.inj succeeded, transferMove, if_neg (not_or.mpr ⟨apart, nothing⟩)]
    refine ⟨(extends_modifyAccount _ _ _).trans (extends_moveCoins _ _ _ _), dead, apart, ?_⟩
    rw [view_moveCoins hashes apart (by rw [born]; exact enough), born]
    rfl

theorem steps_create {policed : Prop} {ledger : Ledger Address} {caller target : Address}
    {value : U256} (fresh : ledger.alive target = false)
    (enough : value.val ≤ ledger.balance caller)
    (checked : caller ≠ target → value ≠ 0 → Payable policed ledger caller target) :
    Ledger.Steps (2 ^ 256) policed ledger
      (paid (bear ledger target) (transferMove ledger caller target value)) := by
  have born : Ledger.Steps (2 ^ 256) policed ledger (bear ledger target) :=
    .single (Ledger.Step.create target fresh)
  have payable : caller ≠ target → value ≠ 0 → Payable policed (bear ledger target) caller target := by
    intro apart something
    obtain ⟨standing, unblocked⟩ := checked apart something
    exact ⟨standing, unblocked⟩
  have funded : value.val ≤ (bear ledger target).balance caller := enough
  exact born.trans (step_transfer funded payable)

/-! ### SELFDESTRUCT -/

/-- A ledger in which a holder that was created before is destroyed. -/
def destroyCreated (holder : Address) : Ledger Address :=
  if ledger.created holder then
    { ledger with destroyed := Function.update ledger.destroyed holder true }
  else ledger

theorem paying_created (move : Option (Move Address)) :
    (paying ledger move).created = ledger.created := by
  cases move <;> rfl

theorem selfdestruct_view {address target : Address} {journal : EvmJournal}
    (apart : address = target → (journal.cells address).balance = 0) :
    Extends journal (selfdestruct hashes address target journal) ∧
      view hashes (selfdestruct hashes address target journal) =
        destroyCreated (paying (view hashes journal) (transferMove (view hashes journal) address
          target (journal.cells address).balance)) address := by
  let balance := (journal.cells address).balance
  let swept :=
    if address = target then
      if (journal.cells address).created then debit address balance journal else journal
    else if balance = 0 then touchAccount target journal
    else moveCoins hashes address target balance journal
  have sweeps : Extends journal swept ∧ view hashes swept =
      paying (view hashes journal) (transferMove (view hashes journal) address target balance) := by
    by_cases same : address = target
    · have empty : balance = 0 := apart same
      rw [transferMove, if_pos (Or.inl same)]
      simp only [swept, if_pos same]
      split_ifs with created
      · have enough : balance.val ≤ (view hashes journal).balance address := le_refl _
        refine ⟨extends_modifyAccount _ _ _, ?_⟩
        rw [view_debit hashes enough, empty]
        simp only [paying, Fin.val_zero, Nat.sub_zero, Function.update_eq_self]
      · exact ⟨Extends.refl journal, rfl⟩
    · simp only [swept, if_neg same]
      split_ifs with empty
      · have touched : Silent hashes journal (touchAccount target journal) :=
          silent_touchAccount target journal
        rw [transferMove, if_pos (Or.inr empty)]
        exact ⟨touched.grown, touched.seen⟩
      · rw [transferMove, if_neg (not_or.mpr ⟨same, empty⟩)]
        exact ⟨extends_moveCoins _ _ _ _, view_moveCoins hashes same (le_refl _)⟩
  obtain ⟨grown, seen⟩ := sweeps
  show Extends journal (if (journal.cells address).created then
      modifyAccount address (fun account => { account with destroyed := true }) swept else swept) ∧
    view hashes (if (journal.cells address).created then
      modifyAccount address (fun account => { account with destroyed := true }) swept else swept) = _
  have status : (paying (view hashes journal) (transferMove (view hashes journal) address target
      balance)).created address = (journal.cells address).created := by
    rw [paying_created]
    rfl
  unfold destroyCreated
  rw [status]
  split_ifs with created
  · exact ⟨grown.trans (extends_modifyAccount _ _ _), by rw [view_destroy, seen]⟩
  · exact ⟨grown, seen⟩

/-- A sweep with its log, and the end of an account created before, make steps of the ledger. -/
theorem steps_selfdestruct {policed : Prop} {ledger : Ledger Address} {address target : Address}
    {balance : U256} (whole : ledger.balance address = balance.val)
    (apart : address = target → balance = 0)
    (checked : address ≠ target → balance ≠ 0 → Payable policed ledger address target) :
    Ledger.Steps (2 ^ 256) policed ledger
      (destroyCreated (paid ledger (transferMove ledger address target balance)) address) := by
  refine (step_transfer (le_of_eq whole.symm) checked).trans ?_
  unfold destroyCreated
  split_ifs with created
  · refine .single (Ledger.Step.destroy address created ?_)
    unfold transferMove
    split_ifs with idle
    · rcases idle with same | nothing
      · rw [paid, whole, apart same]
        rfl
      · rw [paid, whole, nothing]
        rfl
    · obtain ⟨distinct, -⟩ := not_or.mp idle
      simp [paid, Ledger.announce, Ledger.post, Move.credit, Move.debit, whole, Ne.symm distinct]
  · exact .refl

/-! ### Mint and burn -/

theorem view_mint {receiver : Address} {before : Ledger Address}
    {journal : EvmJournal} (small : ∀ holder, before.balance holder < 2 ^ 256)
    (raised : view hashes journal = { before with supply := before.supply + amount.val }) :
    view hashes (credit receiver amount (noteMove hashes none (some receiver) amount journal)) =
      before.post (2 ^ 256) ⟨none, some receiver, amount.val, before.bars none (some receiver)⟩ := by
  rw [view_credit, view_noteMove, raised]
  unfold Ledger.post
  simp only [Ledger.mk.injEq, Option.isNone_none, if_true, true_and, and_true]
  refine ⟨?_, rfl⟩
  funext holder
  by_cases received : holder = receiver
  · subst received
    simp [Move.credit, Move.debit]
  · simp only [Move.credit, Move.debit, Function.update_of_ne received, Option.some.injEq,
      Ne.symm received, reduceCtorEq, if_false, add_zero, Nat.sub_zero]
    exact (Nat.mod_eq_of_lt (small holder)).symm

theorem view_burn {sender : Address} {journal : EvmJournal}
    (enough : amount.val ≤ (view hashes journal).balance sender) :
    { view hashes (debit sender amount (noteMove hashes (some sender) none amount journal)) with
      supply := (view hashes journal).supply - amount.val } =
      (view hashes journal).post (2 ^ 256) ⟨some sender, none, amount.val,
        (view hashes journal).bars (some sender) none⟩ := by
  have small : ∀ holder, (view hashes journal).balance holder < 2 ^ 256 :=
    fun holder => (journal.cells holder).balance.isLt
  rw [view_debit, view_noteMove]
  case enough => rw [view_noteMove]; exact enough
  unfold Ledger.post
  simp only [Ledger.mk.injEq, Option.isNone_none, Option.isNone_some, Bool.false_eq_true, if_true,
    if_false, and_true]
  funext holder
  by_cases gave : holder = sender
  · subst gave
    simp only [Function.update_self, Move.credit, Move.debit, reduceCtorEq, if_true, if_false,
      add_zero]
    exact (Nat.mod_eq_of_lt (lt_of_le_of_lt (Nat.sub_le _ _) (small holder))).symm
  · simp only [Function.update_of_ne gave, Move.credit, Move.debit, Option.some.injEq, Ne.symm gave,
      reduceCtorEq, if_false, add_zero, Nat.sub_zero]
    exact (Nat.mod_eq_of_lt (small holder)).symm

end Transfers

end ArcNode.Evm
