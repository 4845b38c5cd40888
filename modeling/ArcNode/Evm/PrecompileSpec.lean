/-
**The precompiles make steps of the ledger.**

One rule per function of the precompiles says what holds when it does not fail: gas is charged and
forgotten, reads only change what is warm, and the checks give the facts that a move of coins needs.
With them each of the five functions that change the state is a turn of the ledger
(**`turns_precompileAt`**): mint, burn and transfer are one move with its log, and the two functions
of NativeCoinControl change who is blocked.
-/

import Mathlib
import ArcNode.Evm.Payments

namespace ArcNode.Evm

open ArcNode.Lib ArcNode.Lib.Journal ArcNode.Types

/-! ### Rules for the helpers -/

variable {address : Address} {amount : U256}

section Rules

variable {state : EvmJournal × Gas}

theorem ensures_onJournal {change : EvmJournal → EvmJournal}
    {post : Unit → EvmJournal × Gas → Prop} (holds : post () (change state.1, state.2)) :
    Ensures (onJournal change) state post :=
  ensures_modify holds

theorem ensures_getAccount {post : Account → EvmJournal × Gas → Prop}
    (holds : post (state.1.cells address) state) : Ensures (getAccount address) state post :=
  ensures_bind (ensures_get (ensures_pure holds))

theorem ensures_charge {cost : ℕ} {post : Unit → EvmJournal × Gas → Prop}
    (holds : ∀ gas, post () (state.1, gas)) : Ensures (recordCostOrOutOfGas cost) state post := by
  intro value final succeeded
  dsimp only [StateT.run, recordCostOrOutOfGas] at succeeded
  cases charged : state.2.recordRegularCost cost with
  | none =>
    rw [charged] at succeeded
    cases succeeded
  | some gas =>
    rw [charged] at succeeded
    cases succeeded
    exact holds gas

theorem ensures_checkGasRemaining {cost : ℕ} {post : Unit → EvmJournal × Gas → Prop}
    (holds : post () state) : Ensures (checkGasRemaining cost) state post :=
  ensures_bind (ensures_get (ensures_require fun _ => holds))

theorem ensures_decoded {α : Type} {arguments : Option α} {post : α → EvmJournal × Gas → Prop}
    (holds : ∀ values, arguments = some values → post values state) :
    Ensures (decoded arguments) state post := by
  intro value final succeeded
  cases arguments with
  | none => cases succeeded
  | some given =>
    cases succeeded
    exact holds _ rfl

theorem ensures_read {key : U256} {post : U256 → EvmJournal × Gas → Prop}
    (holds : ∀ after gas, Warms state.1 after →
      post ((state.1.cells address).storage key) (after, gas)) :
    Ensures (read address key) state post := by
  have loaded := warms_loadAccount address state.1
  unfold read
  refine ensures_bind (ensures_onJournal (ensures_bind (ensures_getAccount ?_)))
  refine ensures_bind (ensures_charge fun gas => ensures_bind (ensures_onJournal ?_))
  refine ensures_pure ?_
  rw [loaded.storage]
  exact holds _ gas (loaded.trans (warms_sload address key _))

theorem ensures_write {key value : U256} {post : Unit → EvmJournal × Gas → Prop}
    (holds : ∀ ready gas, Warms state.1 ready → post () (sstore address key value ready, gas)) :
    Ensures (write address key value) state post := by
  unfold write
  refine ensures_bind (ensures_get (ensures_bind (ensures_require fun _ => ?_)))
  refine ensures_bind (ensures_onJournal (ensures_bind (ensures_getAccount ?_)))
  refine ensures_bind (ensures_charge fun _ => ensures_bind (ensures_onJournal ?_))
  refine ensures_bind (ensures_charge fun gas => ensures_onJournal ?_)
  exact holds _ gas ((warms_loadAccount address _).trans (warms_sload address key _))

theorem ensures_emitEvent {data : LogData}
    {post : Unit → EvmJournal × Gas → Prop}
    (holds : ∀ gas, post () (emitLog ⟨address, data⟩ state.1, gas)) :
    Ensures (emitEvent address data) state post :=
  ensures_bind (ensures_charge fun gas => ensures_onJournal (holds gas))

theorem ensures_checkCanDecrAccount {flags : ArcHardforkFlags} {account : Account}
    {post : Unit → EvmJournal × Gas → Prop}
    (holds : amount ≤ account.balance → ∀ gas, post () (state.1, gas)) :
    Ensures (checkCanDecrAccount flags account amount) state post := by
  unfold checkCanDecrAccount
  refine ensures_bind (ensures_require fun enough => ?_)
  split_ifs with clears
  · exact ensures_bind (ensures_charge fun _ => ensures_require False.elim)
  · exact ensures_pure (holds enough state.2)

end Rules

/-! ### Rules for the balances -/

section Balances

variable {hashes : Hashes} {flags : ArcHardforkFlags} {state : EvmJournal × Gas}
  {post : Unit → EvmJournal × Gas → Prop}

theorem ensures_balanceIncr {receiver : Address}
    (holds : ∀ ready gas, Warms state.1 ready → (state.1.cells receiver).destroyed = false →
      post () (credit receiver amount (noteMove hashes none (some receiver) amount ready), gas)) :
    Ensures (balanceIncr hashes receiver amount) state post := by
  unfold balanceIncr
  refine ensures_bind (ensures_getAccount (ensures_bind (ensures_onJournal ?_)))
  refine ensures_bind (ensures_charge fun _ => ensures_bind (ensures_require fun standing => ?_))
  refine ensures_bind (ensures_require fun _ => ensures_bind (ensures_charge fun _ => ?_))
  refine ensures_bind (ensures_charge fun gas => ensures_bind (ensures_onJournal ?_))
  exact ensures_onJournal (holds _ gas (warms_loadAccount receiver _) standing)

theorem ensures_balanceDecr {sender : Address}
    (holds : ∀ ready gas, Warms state.1 ready → amount ≤ (state.1.cells sender).balance →
      post () (debit sender amount (noteMove hashes (some sender) none amount ready), gas)) :
    Ensures (balanceDecr hashes flags sender amount) state post := by
  unfold balanceDecr
  refine ensures_bind (ensures_getAccount (ensures_bind (ensures_onJournal ?_)))
  refine ensures_bind (ensures_charge fun _ => ?_)
  refine ensures_bind (ensures_checkCanDecrAccount fun enough _ => ?_)
  refine ensures_bind (ensures_charge fun gas => ensures_bind (ensures_onJournal ?_))
  exact ensures_onJournal (holds _ gas (warms_loadAccount sender _) enough)

theorem ensures_journalTransfer {sender receiver : Address}
    (holds : ∀ after, transferLoaded hashes sender receiver amount state.1 = .ok after →
      post () (after, state.2)) :
    Ensures (journalTransfer hashes sender receiver amount) state post := by
  intro value final succeeded
  dsimp only [StateT.run, journalTransfer] at succeeded
  cases moved : transferLoaded hashes sender receiver amount state.1 with
  | error failure =>
    rw [moved] at succeeded
    cases succeeded
  | ok after =>
    rw [moved] at succeeded
    cases succeeded
    exact holds after moved

theorem ensures_transfer {sender receiver : Address}
    (holds : ∀ ready after gas, Warms state.1 ready → (state.1.cells receiver).destroyed = false →
      transferLoaded hashes sender receiver amount ready = .ok after → post () (after, gas)) :
    Ensures (transfer hashes flags sender receiver amount) state post := by
  have loaded := warms_loadAccount sender state.1
  unfold transfer
  refine ensures_bind (ensures_getAccount (ensures_bind (ensures_onJournal ?_)))
  refine ensures_bind (ensures_charge fun _ => ?_)
  refine ensures_bind (ensures_checkCanDecrAccount fun _ _ => ?_)
  refine ensures_bind (ensures_charge fun _ => ensures_bind (ensures_getAccount ?_))
  refine ensures_bind (ensures_onJournal (ensures_bind (ensures_charge fun _ => ?_)))
  refine ensures_bind (ensures_charge fun _ => ensures_bind (ensures_require fun standing => ?_))
  rw [loaded.destroyed] at standing
  refine ensures_bind (ensures_charge fun gas => ensures_journalTransfer fun after moved => ?_)
  exact holds _ after gas (loaded.trans (warms_loadAccount receiver _)) standing moved

end Balances

/-! ### NativeCoinAuthority -/

section Authority

variable {env : Env} {input : PrecompileInput} {state : EvmJournal × Gas}

theorem ensures_checkNotBlocklisted {post : Unit → EvmJournal × Gas → Prop}
    (holds : ∀ after gas, Warms state.1 after →
      (view env.hashes state.1).blocked address = false → post () (after, gas)) :
    Ensures (checkNotBlocklisted env.hashes address) state post := by
  unfold checkNotBlocklisted isBlocklisted
  refine ensures_bind (ensures_bind (ensures_read fun after gas warms => ensures_pure ?_))
  exact ensures_require fun clear => holds after gas warms clear

theorem ensures_authorize {α : Type} {arguments : Option α} {message : String}
    {post : α → EvmJournal × Gas → Prop}
    (holds : ∀ values, arguments = some values → post values state) :
    Ensures (authorize env.flags input arguments message) state post := by
  unfold authorize checkStaticcall checkDelegatecall
  refine ensures_bind (ensures_require fun _ => ensures_bind (ensures_decoded ?_))
  intro values given
  refine ensures_bind (ensures_require fun _ => ensures_bind (ensures_require fun _ => ?_))
  exact ensures_pure (holds values given)

theorem follows_mint (arguments : Option (Address × U256)) :
    Ensures (mint env.hashes env.flags input arguments) state fun _ final =>
      Follows env state.1 final.1 := by
  unfold mint
  refine ensures_bind (ensures_authorize fun values _ => ?_)
  obtain ⟨receiver, amount⟩ := values
  refine ensures_bind (ensures_require fun named => ?_)
  refine ensures_bind (ensures_checkNotBlocklisted fun checked _ checks clear => ?_)
  refine ensures_bind (ensures_require fun something => ?_)
  refine ensures_bind (ensures_read fun counted _ reads => ?_)
  refine ensures_bind (ensures_require fun fits => ?_)
  refine ensures_bind (ensures_write fun ready _ readies => ?_)
  refine ensures_bind (ensures_balanceIncr fun loaded _ loads standing => ?_)
  refine ensures_bind (ensures_emitEvent fun _ => ensures_pure ?_)
  have warmed : Warms state.1 ready := (checks.trans reads).trans readies
  have supply : ((checked.cells nativeCoinAuthorityAddress).storage totalSupplyStorageKey).val =
      (view env.hashes state.1).supply := by
    rw [checks.storage]
    rfl
  have raised : view env.hashes loaded = { view env.hashes state.1 with
      supply := (view env.hashes state.1).supply + amount.val } := by
    rw [loads.view_eq, view_sstore_supply, warmed.view_eq, U256.val_add_of_lt fits, supply]
  have small : ∀ holder, (view env.hashes state.1).balance holder < 2 ^ 256 :=
    fun holder => (state.1.cells holder).balance.isLt
  have alive : (view env.hashes state.1).destroyed receiver = false := by
    rw [← warmed.view_eq env.hashes]
    exact (congrArg (fun seen => seen.destroyed receiver)
      (view_sstore_supply env.hashes _ ready)).symm.trans standing
  refine ⟨?_, ?_⟩
  · exact warmed.grown.trans ((extends_modifyAccount _ _ _).trans (loads.grown.trans
      ((extends_record _ _).trans ((extends_modifyAccount _ _ _).trans (extends_record _ _)))))
  · rw [view_emitTransfer, view_mint small raised]
    refine .single (Ledger.Step.move _ ⟨?_, Ne.symm named, ?_, ?_, ?_, rfl, ?_⟩)
    · exact fun nothing => something (Fin.ext nothing)
    · intro holder debited
      cases debited
    · intro holder credited
      rw [← Option.some.inj credited]
      exact alive
    · intro _
      rw [← supply]
      exact fits
    · intro _
      simp [Ledger.bars, clear]

theorem follows_burn (arguments : Option (Address × U256)) :
    Ensures (burn env.hashes env.flags input arguments) state fun _ final =>
      Follows env state.1 final.1 := by
  unfold burn
  refine ensures_bind (ensures_authorize fun values _ => ?_)
  obtain ⟨sender, amount⟩ := values
  refine ensures_bind (ensures_require fun named => ?_)
  refine ensures_bind (ensures_checkNotBlocklisted fun checked _ checks clear => ?_)
  refine ensures_bind (ensures_require fun something => ?_)
  refine ensures_bind (ensures_balanceDecr fun loaded _ loads enough => ?_)
  refine ensures_bind (ensures_read fun counted _ reads => ?_)
  refine ensures_bind (ensures_write fun ready _ readies => ?_)
  refine ensures_bind (ensures_emitEvent fun _ => ensures_pure ?_)
  have warmed : Warms state.1 loaded := checks.trans loads
  have funded : amount.val ≤ (view env.hashes loaded).balance sender := by
    rw [loads.view_eq]
    exact Fin.le_def.mp enough
  have supply : (((debit sender amount (noteMove env.hashes (some sender) none amount loaded)).cells
      nativeCoinAuthorityAddress).storage totalSupplyStorageKey).val =
      (view env.hashes loaded).supply :=
    congrArg Ledger.supply (view_debit env.hashes funded)
  refine ⟨?_, ?_⟩
  · exact warmed.grown.trans ((extends_record _ _).trans ((extends_modifyAccount _ _ _).trans
      (reads.grown.trans (readies.grown.trans ((extends_modifyAccount _ _ _).trans
        (extends_record _ _))))))
  · rw [view_emitTransfer, view_sstore_supply, readies.view_eq, reads.view_eq,
      U256.val_saturatingSub, supply, view_burn funded, warmed.view_eq]
    refine .single (Ledger.Step.move _ ⟨?_, named, ?_, ?_, ?_, rfl, ?_⟩)
    · exact fun nothing => something (Fin.ext nothing)
    · intro holder debited
      rw [← Option.some.inj debited, ← warmed.view_eq]
      exact funded
    · intro holder credited
      cases credited
    · intro nobody
      cases nobody
    · intro _
      simp [Ledger.bars, clear]

theorem follows_transferFrom (arguments : Option (Address × Address × U256)) :
    Ensures (transferFrom env.hashes env.flags input arguments) state fun _ final =>
      Follows env state.1 final.1 := by
  unfold transferFrom
  refine ensures_bind (ensures_authorize fun values _ => ?_)
  obtain ⟨sender, receiver, amount⟩ := values
  refine ensures_bind (ensures_require fun _ => ?_)
  refine ensures_bind (ensures_checkNotBlocklisted fun first _ firsts clear => ?_)
  refine ensures_bind (ensures_checkNotBlocklisted fun second _ seconds clear' => ?_)
  have checked : Warms state.1 second := firsts.trans seconds
  have transfers : ∀ ready after, Warms second ready → (second.cells receiver).destroyed = false →
      transferLoaded env.hashes sender receiver amount ready = .ok after →
      Extends state.1 after ∧ view env.hashes after = paying (view env.hashes state.1)
        (transferMove (view env.hashes state.1) sender receiver amount) ∧
      Ledger.Steps (2 ^ 256) (Policed env) (view env.hashes state.1) (paid (view env.hashes state.1)
        (transferMove (view env.hashes state.1) sender receiver amount)) := by
    intro ready after readies standing moved
    have warmed : Warms state.1 ready := checked.trans readies
    obtain ⟨grown, seen, enough⟩ := transferLoaded_view moved
    rw [warmed.view_eq] at seen enough
    refine ⟨warmed.grown.trans grown, seen, step_transfer enough fun _ _ => ⟨?_, fun _ => ⟨clear, ?_⟩⟩⟩
    · rw [← checked.view_eq env.hashes]
      exact standing
    · rw [← firsts.view_eq env.hashes]
      exact clear'
  split_ifs with something distinct
  · refine ensures_bind (ensures_transfer fun ready after _ readies standing moved => ?_)
    refine ensures_bind (ensures_emitEvent fun _ => ensures_pure ?_)
    obtain ⟨grown, seen, steps⟩ := transfers ready after readies standing moved
    refine ⟨grown.trans (extends_record _ _), ?_⟩
    rw [transferMove, if_neg (not_or.mpr ⟨distinct, something⟩)] at seen steps
    rw [view_emitTransfer, seen]
    exact steps
  · refine ensures_bind (ensures_transfer fun ready after _ readies standing moved => ?_)
    refine ensures_bind (ensures_pure (ensures_pure ?_))
    obtain ⟨grown, seen, steps⟩ := transfers ready after readies standing moved
    rw [transferMove, if_pos (Or.inl (not_not.mp distinct))] at seen steps
    exact ⟨grown, seen ▸ .refl⟩
  · refine ensures_pure ?_
    exact checked.silent.follows

theorem follows_unknownCall (message : String) :
    Ensures (unknownCall message) state fun _ final => Follows env state.1 final.1 := by
  unfold unknownCall
  exact ensures_bind (ensures_require False.elim)

theorem follows_runNativeCoinAuthority (call : AuthorityCall) :
    Ensures (runNativeCoinAuthority env.hashes env.flags input call) state fun _ final =>
      Follows env state.1 final.1 := by
  cases call with
  | tooShort | invalidSelector => exact follows_unknownCall _
  | mint arguments => exact follows_mint arguments
  | burn arguments => exact follows_burn arguments
  | transfer arguments => exact follows_transferFrom arguments
  | totalSupply arguments =>
    show Ensures (totalSupply arguments) state _
    unfold totalSupply
    refine ensures_bind (ensures_decoded fun _ _ => ensures_bind (ensures_checkGasRemaining ?_))
    refine ensures_bind (ensures_read fun after _ warms => ensures_pure ?_)
    exact warms.silent.follows

/-! ### NativeCoinControl and SystemAccounting -/

theorem turns_setBlocklisted (arguments : Option Address) (status : U256)
    {event : Address → LogData} (other : ∀ account,
      Record.notice? (.log ⟨nativeCoinControlAddress, event account⟩) = none) (message : String) :
    Ensures (setBlocklisted env.hashes env.flags input arguments status event message) state
      fun _ final => Turns env state.1 final.1 := by
  have written : ∀ account, Ensures (do
      write nativeCoinControlAddress (env.hashes.isBlocklistedStorageSlot account) status
      emitEvent nativeCoinControlAddress (event account)
      pure (Output.flag true) : PrecompileM Output) state fun _ final => Turns env state.1 final.1 := by
    intro account
    refine ensures_bind (ensures_write fun ready _ warms => ?_)
    refine ensures_bind (ensures_emitEvent fun _ => ensures_pure ?_)
    obtain ⟨blocked, seen⟩ := view_sstore_control env.hashes
      (env.hashes.isBlocklistedStorageSlot account) status ready
    have changed : Turns env state.1 (sstore nativeCoinControlAddress
        (env.hashes.isBlocklistedStorageSlot account) status ready) := by
      refine ⟨warms.grown.trans (extends_modifyAccount _ _ _), ?_⟩
      rw [seen, warms.view_eq]
      exact ⟨view env.hashes state.1, blocked, .refl, rfl⟩
    exact changed.trans_silent (silent_emitLog (other account) _)
  unfold setBlocklisted checkStaticcall checkDelegatecall
  refine ensures_bind (ensures_require fun _ => ensures_bind (ensures_decoded fun account _ => ?_))
  refine ensures_bind (ensures_require fun _ => ?_)
  split_ifs
  · refine ensures_bind (ensures_require fun _ => ensures_bind (ensures_checkGasRemaining ?_))
    exact written account
  · refine ensures_bind (ensures_checkGasRemaining ?_)
    exact ensures_bind (ensures_require fun _ => written account)

theorem turns_runNativeCoinControl (call : ControlCall) :
    Ensures (runNativeCoinControl env.hashes env.flags input call) state fun _ final =>
      Turns env state.1 final.1 := by
  have unknown : ∀ message, Ensures (unknownCall message) state fun _ final =>
      Turns env state.1 final.1 := fun message =>
    (follows_unknownCall message).mono fun _ _ follows => follows.turns
  cases call with
  | tooShort | invalidSelector => exact unknown _
  | blocklist arguments => exact turns_setBlocklisted arguments 1 (fun _ => rfl) _
  | isBlocklisted arguments =>
    show Ensures (isBlocklistedCall env.hashes arguments) state _
    unfold isBlocklistedCall isBlocklisted
    refine ensures_bind (ensures_decoded fun _ _ => ensures_bind (ensures_checkGasRemaining ?_))
    refine ensures_bind (ensures_bind (ensures_read fun after _ warms => ensures_pure ?_))
    exact ensures_pure warms.silent.follows.turns
  | unBlocklist arguments => exact turns_setBlocklisted arguments 0 (fun _ => rfl) _

theorem follows_runSystemAccounting (call : AccountingCall) :
    Ensures (runSystemAccounting env.flags input call) state fun _ final =>
      Follows env state.1 final.1 := by
  cases call with
  | tooShort | invalidSelector => exact follows_unknownCall _
  | storeGasValues arguments =>
    unfold runSystemAccounting checkStaticcall checkDelegatecall
    refine ensures_bind (ensures_require fun _ => ensures_bind (ensures_decoded fun values _ => ?_))
    refine ensures_bind (ensures_require fun _ => ensures_bind (ensures_require fun _ => ?_))
    refine ensures_bind (ensures_write fun ready _ warms => ensures_pure ?_)
    have unreserved : systemAccountingAddress ≠ nativeCoinAuthorityAddress ∧
        systemAccountingAddress ≠ nativeCoinControlAddress := by decide
    exact (warms.silent.trans (silent_sstore _ _ unreserved ready)).follows
  | getGasValues arguments =>
    unfold runSystemAccounting
    refine ensures_bind (ensures_decoded fun _ _ => ?_)
    refine ensures_bind (ensures_read fun after _ warms => ensures_pure ?_)
    exact warms.silent.follows

end Authority

/-! ### Any precompile -/

theorem ensures_pureProgram {run : List Byte → ℕ → Except PrecompileErrorOrRevert (ℕ × Output)}
    {inputs : CallInputs} {state : EvmJournal × Gas} {post : Output → EvmJournal × Gas → Prop}
    (holds : ∀ output gas, post output (state.1, gas)) : Ensures (pureProgram run inputs) state post := by
  intro output final succeeded
  dsimp only [StateT.run, pureProgram] at succeeded
  cases ran : run inputs.input inputs.gasLimit with
  | error failure =>
    rw [ran] at succeeded
    cases succeeded
  | ok result =>
    rw [ran] at succeeded
    have charged : Ensures (do recordCostOrOutOfGas result.1; pure result.2) state post :=
      ensures_bind (ensures_charge fun gas => ensures_pure (holds result.2 gas))
    exact charged output final succeeded

theorem turns_precompileAt {env : Env} {inputs : CallInputs} {program : PrecompileM Output}
    (found : precompileAt env inputs = some program) (state : EvmJournal × Gas) :
    Ensures program state fun _ final => Turns env state.1 final.1 := by
  unfold precompileAt at found
  split_ifs at found
  · rw [← Option.some.inj found]
    exact (follows_runNativeCoinAuthority _).mono fun _ _ follows => follows.turns
  · rw [← Option.some.inj found]
    exact turns_runNativeCoinControl _
  · rw [← Option.some.inj found]
    exact (follows_runSystemAccounting _).mono fun _ _ follows => follows.turns
  · obtain ⟨run, -, built⟩ := Option.map_eq_some_iff.mp found
    rw [← built]
    exact ensures_pureProgram fun _ _ => (Follows.refl state.1).turns

end ArcNode.Evm
