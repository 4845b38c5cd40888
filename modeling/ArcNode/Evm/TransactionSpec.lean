/-
**What a transaction does around its frames.**

A transaction that is not refused has the nonce and the funds it needs (`Admitted`); the purchase of
its gas is the only thing that changes the ledger before the frames start (`purchased`), besides
waking accounts. The frames then keep every property that turns of a ledger keep
(**`execute_keeps`**), the sender is never destroyed, and the gas that is given back is within what
was bought (`settleGas_le`).
-/

import Mathlib
import ArcNode.Evm.RunSpec
import ArcNode.Evm.Transaction

namespace ArcNode.Evm

open ArcNode.Lib ArcNode.Lib.Journal ArcNode.Types

section Transaction

variable {env : Env} {block : BlockEnv} {tx : TxEnv} {world : World}

/-! ### Validation -/

/-- What the checks before a transaction give. -/
structure Admitted (env : Env) (block : BlockEnv) (tx : TxEnv) (world : World) : Prop where
  nonce : (world.accounts tx.caller).nonce = tx.nonce
  funded : tx.maxBalanceSpending ≤ (world.accounts tx.caller).balance.val
  small : tx.gasLimit * tx.gasPrice < 2 ^ 128
  blobs : tx.blobs = 0 ∨ block.blobGasPrice ≤ tx.maxFeePerBlobGas
  initial : tx.initialGas ≤ tx.gasLimit
  floor : tx.floorGas ≤ tx.gasLimit
  sender : blocklisted env.hashes (initialJournal env block tx world) tx.caller = false
  recipient : ∀ recipient authorizations, tx.kind = .call recipient authorizations →
    tx.value ≠ 0 → blocklisted env.hashes (initialJournal env block tx world) recipient = false

theorem admitted_of_refusal (accepted : refusal env block tx world = none) :
    Admitted env block tx world := by
  unfold refusal at accepted
  cases first : validate block tx with
  | some failure =>
    rw [first] at accepted
    cases accepted
  | none =>
    rw [first] at accepted
    dsimp only at accepted
    cases second : checkBlocklist env tx (initialJournal env block tx world) with
    | some failure =>
      rw [second] at accepted
      cases accepted
    | none =>
      rw [second] at accepted
      dsimp only at accepted
      have sound : (world.accounts tx.caller).nonce = tx.nonce ∧
          tx.gasLimit * tx.gasPrice < 2 ^ 128 ∧
          tx.maxBalanceSpending ≤ (world.accounts tx.caller).balance.val := by
        unfold validateAgainstState at accepted
        have same : (initialAccount env block tx world tx.caller).nonce =
            (world.accounts tx.caller).nonce := rfl
        have balance : (initialAccount env block tx world tx.caller).balance =
            (world.accounts tx.caller).balance := rfl
        rw [same, balance] at accepted
        split at accepted
        · cases accepted
        · split_ifs at accepted with mismatch last large poor
          exact ⟨not_not.mp mismatch, not_le.mp large, not_lt.mp poor⟩
      have priced : (tx.blobs = 0 ∨ block.blobGasPrice ≤ tx.maxFeePerBlobGas) ∧
          tx.initialGas ≤ tx.gasLimit ∧ tx.floorGas ≤ tx.gasLimit := by
        unfold validate at first
        split_ifs at first with malformed priority cheap blob block' initial floor
        refine ⟨?_, not_lt.mp initial, not_lt.mp floor⟩
        by_cases none : tx.blobs = 0
        · exact Or.inl none
        · exact Or.inr (not_lt.mp fun low => blob ⟨none, low⟩)
      unfold checkBlocklist at second
      by_cases barred : blocklisted env.hashes (initialJournal env block tx world) tx.caller = true
      · rw [if_pos barred] at second
        cases second
      rw [if_neg barred] at second
      refine ⟨sound.1, sound.2.2, sound.2.1, priced.1, priced.2.1, priced.2.2,
        Bool.eq_false_iff.mpr barred, ?_⟩
      intro recipient authorizations kind something
      rw [kind] at second
      dsimp only at second
      split_ifs at second with listed
      exact Bool.eq_false_iff.mpr fun bad => listed ⟨something, bad⟩

theorem effectiveGasPrice_le (tx : TxEnv) (block : BlockEnv) :
    tx.effectiveGasPrice block ≤ tx.gasPrice := by
  unfold TxEnv.effectiveGasPrice
  cases tx.gasPriorityFee with
  | none => exact le_refl _
  | some priority => exact min_le_left _ _

theorem Admitted.spending_le (admitted : Admitted env block tx world) :
    tx.gasBalanceSpending block ≤ (world.accounts tx.caller).balance.val := by
  refine le_trans ?_ admitted.funded
  have gas : tx.gasLimit * tx.effectiveGasPrice block ≤ tx.gasLimit * tx.gasPrice :=
    Nat.mul_le_mul_left _ (effectiveGasPrice_le tx block)
  have blobs : tx.blobFee block ≤ gasPerBlob * tx.blobs * tx.maxFeePerBlobGas := by
    unfold TxEnv.blobFee
    rcases admitted.blobs with none | cheap
    · rw [none, Nat.mul_zero, Nat.zero_mul, Nat.zero_mul]
    · exact Nat.mul_le_mul_left _ cheap
  unfold TxEnv.gasBalanceSpending TxEnv.maxBalanceSpending
  omega

/-! ### The purchase of the gas -/

def purchased (block : BlockEnv) (tx : TxEnv) (world : World) (address : Address) : ℕ :=
  if address = tx.caller then (world.accounts address).balance.val - tx.gasBalanceSpending block
  else (world.accounts address).balance.val

/-- The ledger of a transaction before its frames: the gas is paid and some accounts are awake. -/
structure Purchased (env : Env) (block : BlockEnv) (tx : TxEnv) (world : World)
    (journal : EvmJournal) : Prop where
  seen : ∃ alive, view env.hashes journal =
    { view env.hashes (initialJournal env block tx world) with
      balance := purchased block tx world, alive := alive } ∧
    (∀ address, (world.accounts address).nonce ≠ 0 → alive address = true) ∧
    (tx.isCall = true → alive tx.caller = true)
  creator : tx.isCall = false → (journal.cells tx.caller).nonce = tx.nonce

theorem Purchased.of_warms {journal after : EvmJournal} (warms : Warms journal after)
    (paid : Purchased env block tx world journal) : Purchased env block tx world after := by
  obtain ⟨seen, creator⟩ := paid
  rw [← warms.view_eq] at seen
  exact ⟨seen, fun create => (warms.nonce _).trans (creator create)⟩

variable {journal : EvmJournal}

theorem purchased_deductCaller (admitted : Admitted env block tx world)
    (warms : Warms (initialJournal env block tx world) journal) :
    Purchased env block tx world (deductCaller block tx journal) := by
  have seen := warms.view_eq env.hashes
  have nonce : (journal.cells tx.caller).nonce = tx.nonce := (warms.nonce _).trans admitted.nonce
  have balance : (journal.cells tx.caller).balance = (world.accounts tx.caller).balance :=
    warms.balance _
  have spending : (Fin.ofNat (2 ^ 256) (tx.gasBalanceSpending block)).val =
      tx.gasBalanceSpending block :=
    Nat.mod_eq_of_lt (lt_of_le_of_lt admitted.spending_le (world.accounts tx.caller).balance.isLt)
  refine ⟨⟨Function.update (view env.hashes journal).alive tx.caller
    (decide ((if tx.isCall then (journal.cells tx.caller).nonce + 1
      else (journal.cells tx.caller).nonce) ≠ 0)), ?_, ?_, ?_⟩, ?_⟩
  · rw [deductCaller, view_modifyAccount, ← seen]
    simp only [Ledger.mk.injEq, true_and, and_true]
    refine ⟨?_, supply_of_storage env.hashes tx.caller journal, Function.update_eq_self _ _,
      Function.update_eq_self _ _, blocked_of_storage env.hashes tx.caller journal⟩
    funext address
    unfold purchased
    by_cases here : address = tx.caller
    · rw [if_pos here, here, Function.update_self, U256.val_saturatingSub, balance, spending]
    · rw [if_neg here, Function.update_of_ne here, seen]
      rfl
  · intro address alive
    by_cases here : address = tx.caller
    · rw [here, admitted.nonce] at alive
      rw [here, Function.update_self, nonce]
      split_ifs
      · exact decide_eq_true (Nat.succ_ne_zero _)
      · exact decide_eq_true alive
    · rw [Function.update_of_ne here, seen]
      exact decide_eq_true alive
  · intro call
    rw [Function.update_self, if_pos call]
    exact decide_eq_true (Nat.succ_ne_zero _)
  · intro create
    rw [deductCaller, modifyAccount_self, create]
    exact nonce

theorem purchased_applyAuthorization (call : tx.isCall = true) (state : EvmJournal × ℕ)
    (entry : Authorization) (paid : Purchased env block tx world state.1) :
    Purchased env block tx world (applyAuthorization state entry).1 := by
  unfold applyAuthorization
  cases entry.authority with
  | none => exact paid
  | some authority =>
    have loads := warms_loadAccount authority state.1
    have woken : ∀ code, Purchased env block tx world
        (bumpNonce authority (setCode authority code (loadAccount authority state.1))) := by
      intro code
      have silent : Silent env.hashes state.1
          (setCode authority code (loadAccount authority state.1)) :=
        loads.silent.trans (silent_setCode _ _ _)
      obtain ⟨alive, seen, elder, sender⟩ := paid.seen
      refine ⟨⟨Function.update alive authority true, ?_, ?_, ?_⟩, fun create => ?_⟩
      · rw [view_bumpNonce, silent.seen, seen]
      · intro address present
        rw [Function.update_apply, elder address present, ite_self]
      · intro called
        rw [Function.update_apply, sender called, ite_self]
      · cases call.symm.trans create
    dsimp only
    by_cases skipped : entry.chainIdMatches = false ∨ entry.nonce = 2 ^ 64 - 1
    · rw [if_pos skipped]
      exact paid
    rw [if_neg skipped]
    have applied : Purchased env block tx world (if (state.1.cells authority).nonce ≠ entry.nonce then
        (loadAccount authority state.1, state.2)
        else (bumpNonce authority (setCode authority
          (if entry.delegate = 0 then Code.empty else Code.delegated entry.delegate)
          (loadAccount authority state.1)),
          if (state.1.cells authority).isEmpty then state.2 else state.2 + 12500)).1 := by
      by_cases stale : (state.1.cells authority).nonce ≠ entry.nonce
      · rw [if_pos stale]
        exact paid.of_warms loads
      · rw [if_neg stale]
        exact woken _
    cases (state.1.cells authority).code with
    | contract bytes => exact paid.of_warms loads
    | empty | delegated delegate => exact applied

theorem purchased_applyAuthorizations (call : tx.isCall = true) (authorizations : List Authorization)
    (state : EvmJournal × ℕ) (paid : Purchased env block tx world state.1) :
    Purchased env block tx world (authorizations.foldl applyAuthorization state).1 := by
  induction authorizations generalizing state with
  | nil => exact paid
  | cons entry rest ih => exact ih _ (purchased_applyAuthorization call state entry paid)

theorem warms_readParties (env : Env) (block : BlockEnv) (tx : TxEnv) (world : World) :
    Warms (initialJournal env block tx world) (readParties env tx
      (loadAccount nativeCoinControlAddress (initialJournal env block tx world))) := by
  refine (warms_loadAccount nativeCoinControlAddress _).trans ?_
  unfold readParties
  split
  · exact warms_readBlocklist _ _
  · split_ifs
    · exact warms_readBlocklist _ _
    · exact (warms_readBlocklist _ _).trans (warms_readBlocklist _ _)

theorem purchased_preExecution (admitted : Admitted env block tx world) :
    Purchased env block tx world (preExecution env block tx world).1 := by
  have paid := purchased_deductCaller admitted (warms_readParties env block tx world)
  unfold preExecution applyAuthorizations
  cases kind : tx.kind with
  | create => exact paid
  | call recipient authorizations =>
    have call : tx.isCall = true := by rw [TxEnv.isCall, kind]
    exact purchased_applyAuthorizations call authorizations (_, 0) paid

/-! ### The frames -/

def opening (env : Env) (block : BlockEnv) (tx : TxEnv) (world : World) : EvmJournal :=
  loadRecipient tx (preExecution env block tx world).1

theorem purchased_opening (admitted : Admitted env block tx world) :
    Purchased env block tx world (opening env block tx world) := by
  refine (purchased_preExecution admitted).of_warms ?_
  unfold opening loadRecipient
  split
  · exact Warms.refl _
  · exact warms_loadAccount _ _

theorem Purchased.reserved (paid : Purchased env block tx world journal) :
    Ledger.Standing nativeCoinAuthorityAddress (view env.hashes journal) ∧
      Ledger.Standing nativeCoinControlAddress (view env.hashes journal) := by
  obtain ⟨alive, seen, elder, -⟩ := paid.seen
  rw [seen]
  exact ⟨⟨elder _ world.authority, rfl, rfl⟩, ⟨elder _ world.control, rfl, rfl⟩⟩

theorem Purchased.standing (paid : Purchased env block tx world journal) : Ledger.Standing tx.caller
      (wakes (firstFrameInput tx (opening env block tx world)) (view env.hashes journal)) := by
  obtain ⟨alive, seen, -, sender⟩ := paid.seen
  rw [seen]
  unfold firstFrameInput
  cases kind : tx.kind with
  | create => exact ⟨Function.update_self _ _ _, rfl, rfl⟩
  | call recipient authorizations =>
    exact ⟨sender (by rw [TxEnv.isCall, kind]), rfl, rfl⟩

theorem allowed_firstFrameInput (admitted : Admitted env block tx world) :
    Allowed (env.during tx) 0 (opening env block tx world)
      (firstFrameInput tx (opening env block tx world)) := by
  have paid := purchased_opening admitted
  unfold firstFrameInput
  cases kind : tx.kind with
  | create =>
    exact ⟨(fun _ custom => nomatch custom), fun _ => paid.creator (by rw [TxEnv.isCall, kind])⟩
  | call recipient authorizations => exact ⟨fun other => (other rfl).elim, Or.inr rfl⟩

theorem firstFrameInput_gasLimit (tx : TxEnv) (journal : EvmJournal) :
    (firstFrameInput tx journal).gasLimit = tx.gasLimit - tx.initialGas := by
  unfold firstFrameInput
  cases tx.kind <;> rfl

theorem run_of_ended {registry : SubcallRegistry} {machine : Machine}
    (ended : machine.ending ≠ none) (actions : List Action) :
    run (step env registry) machine actions = machine := by
  induction actions with
  | nil => rfl
  | cons action rest ih =>
    have stays : (step env registry machine action).1 = machine := by
      unfold step
      cases ending : machine.ending with
      | none => exact (ended ending).elim
      | some stopped => rfl
    rw [run, stays]
    exact ih

theorem start_event {registry : SubcallRegistry} (input : FrameInput) (journal : EvmJournal) :
    (start env registry input journal).2 = .none ∨
      ∃ frame continuation, (start env registry input journal).2 = .pushed frame continuation := by
  dsimp only [start]
  generalize frameInit env registry 0 input journal = started
  obtain ⟨outcome, after⟩ := started
  cases outcome with
  | item frame continuation => exact Or.inr ⟨frame, continuation, rfl⟩
  | result result => exact Or.inl rfl

/-- **What holds in a state of the frames of a transaction**: a given property; the sender is not
destroyed, the gas of the result is within the limit, and the two precompiles stand. -/
structure Upheld (env : Env) (block : BlockEnv) (tx : TxEnv) (world : World) (actions : List Action)
    (P : Ledger Address → Prop) : Prop where
  holds : P (view env.hashes (execute env block tx world actions).journal)
  sender : (view env.hashes (execute env block tx world actions).journal).destroyed tx.caller = false
  gas : ∀ result, (execute env block tx world actions).ending = some (.finished result) →
    result.gas.limit ≤ tx.gasLimit - tx.initialGas
  authority : Ledger.Standing nativeCoinAuthorityAddress
    (view env.hashes (execute env block tx world actions).journal)
  control : Ledger.Standing nativeCoinControlAddress
    (view env.hashes (execute env block tx world actions).journal)

/-- What the frames of a transaction keep, beside a given property. -/
structure Grounded (tx : TxEnv) (P : Ledger Address → Prop) (ledger : Ledger Address) : Prop where
  holds : P ledger
  sender : Ledger.Standing tx.caller ledger
  authority : Ledger.Standing nativeCoinAuthorityAddress ledger
  control : Ledger.Standing nativeCoinControlAddress ledger

theorem KeptFrom.woken {P : Ledger Address → Prop} {ledger : Ledger Address}
    (kept : KeptFrom env P ledger.blocked) (held : P ledger) (input : FrameInput) :
    P (wakes input ledger) := by
  cases input with
  | call inputs => exact held
  | create inputs =>
    exact kept _ _ rfl (Ledger.Steps.turn (.single (Ledger.Step.awake inputs.caller))) held

theorem KeptFrom.grounded {P : Ledger Address → Prop} {blocked : Address → Bool}
    (kept : KeptFrom env P blocked) : KeptFrom (env.during tx) (Grounded tx P) blocked := by
  intro before after same turn held
  exact ⟨kept before after same turn held.holds, turn.standing held.sender,
    turn.standing held.authority, turn.standing held.control⟩

section Keeps

variable {P : Ledger Address → Prop} {actions : List Action}
  (admitted : Admitted env block tx world) (begins : P (view env.hashes (opening env block tx world)))
  (first : KeptFrom env P (view env.hashes (opening env block tx world)).blocked)

include admitted begins first

/-- The case of a first frame that is over at once. -/
theorem execute_over (immediate : (start (env.during tx) (buildSubcallRegistry (env.during tx))
      (firstFrameInput tx (opening env block tx world)) (opening env block tx world)).2 = .none) :
    Upheld env block tx world actions P := by
  have paid := purchased_opening admitted
  obtain ⟨authority, control⟩ := paid.reserved
  obtain ⟨result, after, same, turns, gas, created⟩ :=
    @start_over (env.during tx) _ _ _ (plain_buildSubcallRegistry _) ⟨authority.1, control.1⟩
      (allowed_firstFrameInput admitted) immediate
  have stays : execute env block tx world actions =
      ⟨after, [], fun _ => none, some (.finished result)⟩ := by
    refine (run_of_ended ?_ actions).trans same
    rw [show (begin env block tx world) = _ from same]
    exact fun none => nomatch none
  refine ⟨?_, ?_, ?_, ?_, ?_⟩ <;> rw [stays]
  · exact first _ _ rfl turns.turn begins
  · have standing := paid.standing
    cases input : firstFrameInput tx (opening env block tx world) with
    | call inputs =>
      rw [input] at standing
      exact (turns.turn.standing standing).2.2
    | create inputs =>
      rw [input] at standing created
      rcases created ⟨inputs, rfl⟩ with unchanged | awake
      · rw [show view env.hashes after = _ from unchanged]
        exact standing.2.2
      · rw [show view env.hashes after = _ from awake]
        exact standing.2.2
  · intro other finished
    rw [← Ending.finished.inj (Option.some.inj finished), gas, firstFrameInput_gasLimit]
  · exact turns.turn.standing authority
  · exact turns.turn.standing control

/-- **The frames of a transaction keep what turns of the ledger keep**, from the blocklists they go
through. -/
theorem execute_keeps (keeps : ∀ front, front <+: actions →
      KeptFrom env P (view env.hashes (execute env block tx world front).journal).blocked) :
    Upheld env block tx world actions P := by
  rcases start_event (firstFrameInput tx (opening env block tx world)) (opening env block tx world) with
    immediate | ⟨frame, continuation, pushed⟩
  · exact execute_over admitted begins first immediate
  · have paid := purchased_opening admitted
    obtain ⟨authority, control⟩ := paid.reserved
    have plain := plain_buildSubcallRegistry (env.during tx)
    have stands : ∀ address blocked, KeptFrom env (Ledger.Standing address) blocked :=
      fun _ _ _ _ _ turn => turn.standing
    obtain ⟨tags, sound⟩ := @sound_start (env.during tx) _ (Grounded tx P) _ _ plain
      ⟨authority.1, control.1⟩ (allowed_firstFrameInput admitted) first.grounded
      ⟨first.woken begins _, paid.standing, (stands _ _).woken authority _,
        (stands _ _).woken control _⟩ _ _ pushed
    have along : Along (step (env.during tx) (buildSubcallRegistry (env.during tx)))
        (fun machine _ => KeptFrom (env.during tx) (Grounded tx P)
          (view env.hashes machine.journal).blocked) (begin env block tx world) actions :=
      along_of_prefixes fun front beginning => (keeps front beginning).grounded
    obtain ⟨last, held⟩ := sound_run sound plain
      (fun ledger all => ⟨all.authority.1, all.control.1⟩) along
    refine ⟨held.holds.holds, held.holds.sender.2.2, ?_, held.holds.authority, held.holds.control⟩
    intro result finished
    exact (held.finished result finished).trans_eq (firstFrameInput_gasLimit _ _)

end Keeps

/-! ### After the frames -/

theorem settleGas_le {result : FrameResult} (limit : result.gas.limit ≤ tx.gasLimit - tx.initialGas)
    (eip7702Refund : ℕ) :
    (settleGas tx eip7702Refund result).remaining + (settleGas tx eip7702Refund result).refunded ≤
      tx.gasLimit := by
  have within := result.gas.within
  unfold settleGas
  dsimp only
  have kept : (if result.interpreterResult.result.isOkOrRevert then result.gas.remaining else 0) ≤
      tx.gasLimit := by
    split_ifs <;> omega
  generalize (if result.interpreterResult.result.isOkOrRevert then result.gas.remaining else 0) =
    remaining at kept ⊢
  generalize (((if result.interpreterResult.result.isOk then result.gas.refunded else 0) +
    eip7702Refund : ℤ) % 2 ^ 64).toNat = recorded
  split_ifs with low
  · show tx.gasLimit - tx.floorGas + 0 ≤ tx.gasLimit
    omega
  · show remaining + min recorded ((tx.gasLimit - remaining) / 5) ≤ tx.gasLimit
    omega

def settled (block : BlockEnv) (tx : TxEnv) (settlement : Settlement) (journal : EvmJournal) :
    EvmJournal :=
  rewardBeneficiary block tx settlement (reimburseCaller block tx settlement journal)

/-- A transaction that was executed: its frames ended, and the rest was settled and committed. -/
structure Executed (env : Env) (block : BlockEnv) (tx : TxEnv) (world : World)
    (actions : List Action) (receipt : Receipt) (accounts : Address → StoredAccount)
    (settlement : Settlement) : Prop where
  admitted : Admitted env block tx world
  ended : ∃ result, (execute env block tx world actions).ending = some (.finished result) ∧
    settlement = settleGas tx (preExecution env block tx world).2 result
  beneficiary : env.flags.isActive .zero8 = true →
    ((execute env block tx world actions).journal.cells block.beneficiary).destroyed = false
  gasUsed : receipt.gasUsed = settlement.gasUsed tx
  logs : receipt.logs =
    ((execute env block tx world actions).journal.records.filterMap Record.log?).reverse
  accounts : accounts = fun address =>
    ((settled block tx settlement (execute env block tx world actions).journal).cells address).commit

theorem incrBalance_field {α : Type} {read : Account → α}
    (blind : ∀ account balance, read { account with balance := balance, warm := true, touched := true } =
      read account) (address other : Address) (amount : U256) (journal : EvmJournal) :
    read ((incrBalance address amount journal).cells other) = read (journal.cells other) :=
  modifyAccount_field (fun account => blind account _) address other journal

theorem executed_of_transact {actions : List Action} {receipt : Receipt}
    {accounts : Address → StoredAccount}
    (executed : transact env block tx world actions = .executed receipt accounts) :
    ∃ settlement, Executed env block tx world actions receipt accounts settlement := by
  unfold transact at executed
  cases accepted : refusal env block tx world with
  | some failure =>
    rw [accepted] at executed
    cases executed
  | none =>
    rw [accepted] at executed
    dsimp only at executed
    cases ending : (execute env block tx world actions).ending with
    | none =>
      rw [ending] at executed
      cases executed
    | some stopped =>
      cases stopped with
      | fatal =>
        rw [ending] at executed
        cases executed
      | finished result =>
        rw [ending] at executed
        dsimp only [postExecution] at executed
        split_ifs at executed with lost
        cases executed
        refine ⟨_, admitted_of_refusal accepted, ⟨result, ending, rfl⟩, ?_, rfl, rfl, rfl⟩
        intro active
        have same : (((reimburseCaller block tx (settleGas tx (preExecution env block tx world).2
            result) (execute env block tx world actions).journal).cells block.beneficiary).destroyed) =
            ((execute env block tx world actions).journal.cells block.beneficiary).destroyed :=
          incrBalance_field (fun _ _ => rfl) _ _ _ _
        rw [← same]
        exact Bool.eq_false_iff.mpr fun destroyed => lost ⟨active, destroyed⟩

theorem incrBalance_balance {address : Address} {amount : U256}
    (fits : (journal.cells address).balance.val + amount.val < 2 ^ 256) (other : Address) :
    ((incrBalance address amount journal).cells other).balance.val =
      (journal.cells other).balance.val + if other = address then amount.val else 0 := by
  unfold incrBalance
  by_cases here : other = address
  · rw [here, modifyAccount_self, if_pos rfl]
    exact U256.val_saturatingAdd_of_lt fits
  · rw [modifyAccount_of_ne here, if_neg here, Nat.add_zero]

theorem settled_field {α : Type} {read : Account → α}
    (blind : ∀ account balance, read { account with balance := balance, warm := true, touched := true } =
      read account) (settlement : Settlement) (journal : EvmJournal) (address : Address) :
    read ((settled block tx settlement journal).cells address) = read (journal.cells address) :=
  (incrBalance_field blind _ _ _ _).trans (incrBalance_field blind _ _ _ _)

/-- **The gas that was bought is given back or becomes the fee**, if the balances have room for
it. -/
theorem settled_balance (admitted : Admitted env block tx world) {settlement : Settlement}
    (within : settlement.remaining + settlement.refunded ≤ tx.gasLimit) {journal : EvmJournal}
    (room : ∀ address, (journal.cells address).balance.val +
      tx.gasLimit * tx.effectiveGasPrice block < 2 ^ 256) (address : Address) :
    ((settled block tx settlement journal).cells address).balance.val =
      (journal.cells address).balance.val + (if address = tx.caller then
          tx.effectiveGasPrice block * (settlement.remaining + settlement.refunded) else 0) +
        (if address = block.beneficiary then totalFeeAmount block tx settlement else 0) := by
  have parts : tx.effectiveGasPrice block * (settlement.remaining + settlement.refunded) +
      totalFeeAmount block tx settlement = tx.gasLimit * tx.effectiveGasPrice block := by
    unfold totalFeeAmount Settlement.gasUsed
    rw [← Nat.mul_add, Nat.mul_comm tx.gasLimit]
    congr 1
    omega
  have small : tx.effectiveGasPrice block * (settlement.remaining + settlement.refunded) < 2 ^ 128 := by
    calc tx.effectiveGasPrice block * (settlement.remaining + settlement.refunded)
        ≤ tx.gasPrice * tx.gasLimit := Nat.mul_le_mul (effectiveGasPrice_le tx block) within
      _ < 2 ^ 128 := by
          rw [Nat.mul_comm]
          exact admitted.small
  have back : (Fin.ofNat (2 ^ 256) (min
      (tx.effectiveGasPrice block * (settlement.remaining + settlement.refunded)) (2 ^ 128 - 1))).val =
      tx.effectiveGasPrice block * (settlement.remaining + settlement.refunded) := by
    rw [min_eq_left (by omega)]
    exact Nat.mod_eq_of_lt (by omega)
  have fee : (Fin.ofNat (2 ^ 256) (totalFeeAmount block tx settlement)).val =
      totalFeeAmount block tx settlement :=
    Nat.mod_eq_of_lt (by have := room tx.caller; omega)
  have first : ∀ other, ((reimburseCaller block tx settlement journal).cells other).balance.val =
      (journal.cells other).balance.val + if other = tx.caller then
        tx.effectiveGasPrice block * (settlement.remaining + settlement.refunded) else 0 := by
    intro other
    unfold reimburseCaller
    rw [incrBalance_balance (by have := room tx.caller; omega), back]
  unfold settled rewardBeneficiary
  rw [incrBalance_balance, fee, first]
  rw [fee, first]
  have := room block.beneficiary
  split_ifs <;> omega

end Transaction

end ArcNode.Evm
