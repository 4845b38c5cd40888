/-
**What a transaction can do to an account.**

`Modified` lists the changes that the code makes to one account: loads change what is warm, payments
and nonces touch it, storage and code are written, an account is born with nonce 1 if it had none,
and dies only if it was born in the same transaction. What all these changes keep (`Kept`) is true
of every account whenever a transaction looks (**`everywhere_execute`**). So an account with a nonce
keeps one (**`nonce_of_transact`**), and what a transaction did not touch it did not change
(**`accounts_of_transact`**).
-/

import Mathlib
import ArcNode.Evm.TransactionSpec

namespace ArcNode.Evm

open ArcNode.Lib ArcNode.Lib.Journal ArcNode.Types

/-! ### Changes of one account -/

inductive Modified (account : Account) : Account → Prop
  | warms (warm : Bool) (warmSlots : U256 → Bool) :
      Modified account { account with warm := warm, warmSlots := warmSlots }
  | pays (balance : U256) (nonce : ℕ) (warm : Bool) (more : account.nonce ≤ nonce) :
      Modified account
        { account with balance := balance, nonce := nonce, warm := warm, touched := true }
  | stores (storage : U256 → U256) :
      Modified account { account with storage := storage, touched := true }
  | codes (code : Code) : Modified account { account with code := code, touched := true }
  | born (fresh : account.nonce = 0) (bare : account.code = .empty) : Modified account
        { account with
          nonce := 1, code := .empty, storage := fun _ => 0, original := fun _ => 0
          touched := true, created := true }
  | dies (created : account.created = true) : Modified account { account with destroyed := true }

def Kept (holds : Address → Account → Prop) : Prop :=
  ∀ address account after, Modified account after → holds address account → holds address after

theorem Modified.of_cooled {account after : Account} (same : after.cooled = account.cooled) :
    Modified account after := by
  obtain ⟨balance, nonce, code, storage, original, warm, warmSlots, touched, created, destroyed⟩ := after
  simp only [Account.cooled, Account.mk.injEq] at same
  obtain ⟨rfl, rfl, rfl, rfl, rfl, -, -, rfl, rfl, rfl⟩ := same
  exact .warms warm warmSlots

section Journals

variable {holds : Address → Account → Prop} {hashes : Hashes} {journal after : EvmJournal}
  (kept : Kept holds) (everywhere : Everywhere holds journal)

theorem Everywhere.revert (everywhere : Everywhere holds journal) (checkpoint : Checkpoint) :
    Everywhere holds (journal.revert checkpoint) :=
  Always.revert everywhere checkpoint

include kept everywhere

theorem Everywhere.of_warms (warms : Warms journal after) : Everywhere holds after :=
  warms.everywhere holds (fun _ _ _ same => kept _ _ _ (.of_cooled same)) everywhere

theorem everywhere_modifyAccount {address : Address} {change : Account → Account}
    (modified : Modified (journal.cells address) (change (journal.cells address))) :
    Everywhere holds (modifyAccount address change journal) :=
  everywhere.modify (kept _ _ _ modified)

variable (address : Address)

theorem everywhere_sstore (key value : U256) :
    Everywhere holds (sstore address key value journal) :=
  everywhere_modifyAccount kept everywhere (.stores _)

theorem everywhere_setCode (code : Code) : Everywhere holds (setCode address code journal) :=
  everywhere_modifyAccount kept everywhere (.codes code)

theorem everywhere_touchAccount : Everywhere holds (touchAccount address journal) :=
  everywhere_modifyAccount kept everywhere (.pays (journal.cells address).balance
    (journal.cells address).nonce (journal.cells address).warm le_rfl)

theorem everywhere_bumpNonce : Everywhere holds (bumpNonce address journal) :=
  everywhere_modifyAccount kept everywhere (.pays (journal.cells address).balance
    ((journal.cells address).nonce + 1) (journal.cells address).warm (Nat.le_succ _))

theorem everywhere_credit (amount : U256) : Everywhere holds (credit address amount journal) :=
  everywhere_modifyAccount kept everywhere (.pays _ (journal.cells address).nonce
    (journal.cells address).warm le_rfl)

theorem everywhere_debit (amount : U256) : Everywhere holds (debit address amount journal) :=
  everywhere_modifyAccount kept everywhere (.pays _ (journal.cells address).nonce
    (journal.cells address).warm le_rfl)

theorem everywhere_moveCoins (sender receiver : Address) (amount : U256) :
    Everywhere holds (moveCoins hashes sender receiver amount journal) := by
  have noted : Everywhere holds (noteMove hashes (some sender) (some receiver) amount journal) :=
    everywhere
  exact everywhere_credit kept (everywhere_debit kept noted sender amount) receiver amount

theorem everywhere_transferLoaded {sender receiver : Address} {amount : U256}
    (made : transferLoaded hashes sender receiver amount journal = .ok after) :
    Everywhere holds after := by
  unfold transferLoaded at made
  split_ifs at made
  · obtain rfl := Except.ok.inj made
    exact everywhere
  · obtain rfl := Except.ok.inj made
    exact everywhere_touchAccount kept everywhere receiver
  · obtain rfl := Except.ok.inj made
    exact everywhere_moveCoins kept everywhere sender receiver amount

theorem everywhere_createAccount {caller target : Address} {value : U256}
    (made : createAccount hashes caller target value journal = .ok after) :
    Everywhere holds after := by
  unfold createAccount at made
  by_cases taken : (journal.cells target).code ≠ .empty ∨ (journal.cells target).nonce ≠ 0
  · rw [if_pos taken] at made
    cases made
  rw [if_neg taken] at made
  have bare : (journal.cells target).code = .empty := not_not.mp fun code => taken (Or.inl code)
  have fresh : (journal.cells target).nonce = 0 := not_not.mp fun nonce => taken (Or.inr nonce)
  have born : Everywhere holds (modifyAccount target (fun account =>
      { account with
        nonce := 1, code := .empty, storage := fun _ => 0, original := fun _ => 0
        touched := true, created := true }) journal) :=
    everywhere_modifyAccount kept everywhere (.born fresh bare)
  dsimp only at made
  split_ifs at made
  · obtain rfl := Except.ok.inj made
    exact born
  · obtain rfl := Except.ok.inj made
    exact everywhere_moveCoins kept born caller target value

theorem everywhere_selfdestruct (address target : Address) :
    Everywhere holds (selfdestruct hashes address target journal) := by
  -- the sweep neither creates nor forgets a creation
  have swept : ∀ ready : EvmJournal, Everywhere holds ready →
      (ready.cells address).created = (journal.cells address).created →
      Everywhere holds (if (journal.cells address).created then
        modifyAccount address (fun account => { account with destroyed := true }) ready
        else ready) := by
    intro ready ready_everywhere same
    split_ifs with created
    · exact everywhere_modifyAccount kept ready_everywhere (.dies (same.trans created))
    · exact ready_everywhere
  have debited : ∀ sender amount (ready : EvmJournal),
      ((debit sender amount ready).cells address).created = (ready.cells address).created := by
    intro sender amount ready
    refine modifyAccount_field ?_ sender address ready
    exact fun _ => rfl
  refine swept _ ?_ ?_
  · split_ifs
    · exact everywhere_debit kept everywhere address _
    · exact everywhere
    · exact everywhere_touchAccount kept everywhere target
    · exact everywhere_moveCoins kept everywhere address target _
  · split_ifs
    · exact debited _ _ _
    · rfl
    · refine modifyAccount_field ?_ target address journal
      exact fun _ => rfl
    · have credited : ∀ amount (ready : EvmJournal),
          ((credit target amount ready).cells address).created = (ready.cells address).created := by
        intro amount ready
        refine modifyAccount_field ?_ target address ready
        exact fun _ => rfl
      exact (credited _ _).trans (debited _ _ _)

end Journals

/-! ### Precompiles -/

/-- A program that keeps the property, if it succeeds. -/
def Keeps {α : Type} (holds : Address → Account → Prop) (program : PrecompileM α) : Prop :=
  ∀ state, Everywhere holds state.1 → Ensures program state fun _ final => Everywhere holds final.1

section Programs

variable {holds : Address → Account → Prop} {α β : Type}

theorem keeps_pure (value : α) : Keeps holds (pure value) :=
  fun _ everywhere => ensures_pure everywhere

theorem keeps_bind {program : PrecompileM α} {next : α → PrecompileM β}
    (first : Keeps holds program) (second : ∀ value, Keeps holds (next value)) :
    Keeps holds (program >>= next) := by
  intro state everywhere
  refine ensures_bind ((first state everywhere).mono fun value final reached => ?_)
  exact second value final reached

theorem keeps_require {condition : Prop} [Decidable condition]
    {failure : EvmJournal × Gas → PrecompileErrorOrRevert} :
    Keeps holds (require condition failure) :=
  fun _ everywhere => ensures_require fun _ => everywhere

theorem keeps_checkGasRemaining (cost : ℕ) : Keeps holds (checkGasRemaining cost) :=
  fun _ everywhere => ensures_checkGasRemaining everywhere

theorem keeps_decoded (arguments : Option α) : Keeps holds (decoded arguments) :=
  fun _ everywhere => ensures_decoded fun _ _ => everywhere

theorem keeps_emitEvent (address : Address) (data : LogData) :
    Keeps holds (emitEvent address data) :=
  fun _ everywhere => ensures_emitEvent fun _ => everywhere

variable {hashes : Hashes} {flags : ArcHardforkFlags} {input : PrecompileInput}

theorem keeps_authorize (arguments : Option α) (message : String) :
    Keeps holds (authorize flags input arguments message) :=
  keeps_bind keeps_require fun _ => keeps_bind (keeps_decoded _) fun _ =>
    keeps_bind keeps_require fun _ => keeps_bind keeps_require fun _ => keeps_pure _

theorem keeps_unknownCall (message : String) : Keeps holds (unknownCall message) :=
  keeps_bind keeps_require fun _ => keeps_pure _

variable (kept : Kept holds)

include kept

variable (address : Address)

theorem keeps_read (key : U256) : Keeps holds (read address key) :=
  fun _ everywhere => ensures_read fun _ _ warms => everywhere.of_warms kept warms

theorem keeps_write (key value : U256) : Keeps holds (write address key value) :=
  fun _ everywhere => ensures_write fun _ _ warms =>
    everywhere_sstore kept (everywhere.of_warms kept warms) address key value

theorem keeps_transfer (sender receiver : Address) (amount : U256) :
    Keeps holds (transfer hashes flags sender receiver amount) :=
  fun _ everywhere => ensures_transfer fun _ _ _ warms _ made =>
    everywhere_transferLoaded kept (everywhere.of_warms kept warms) made

theorem keeps_balanceIncr (receiver : Address) (amount : U256) :
    Keeps holds (balanceIncr hashes receiver amount) := by
  refine fun _ everywhere => ensures_balanceIncr fun ready _ warms _ => ?_
  have loaded := everywhere.of_warms kept warms
  have noted : Everywhere holds (noteMove hashes none (some receiver) amount ready) := loaded
  exact everywhere_credit kept noted receiver amount

theorem keeps_balanceDecr (sender : Address) (amount : U256) :
    Keeps holds (balanceDecr hashes flags sender amount) := by
  refine fun _ everywhere => ensures_balanceDecr fun ready _ warms _ => ?_
  have loaded := everywhere.of_warms kept warms
  have noted : Everywhere holds (noteMove hashes (some sender) none amount ready) := loaded
  exact everywhere_debit kept noted sender amount

theorem keeps_isBlocklisted : Keeps holds (isBlocklisted hashes address) :=
  keeps_bind (keeps_read kept _ _) fun _ => keeps_pure _

theorem keeps_checkNotBlocklisted : Keeps holds (checkNotBlocklisted hashes address) :=
  keeps_bind (keeps_isBlocklisted kept address) fun _ => keeps_require

theorem keeps_runNativeCoinAuthority (call : AuthorityCall) :
    Keeps holds (runNativeCoinAuthority hashes flags input call) := by
  cases call with
  | tooShort | invalidSelector => exact keeps_unknownCall _
  | mint arguments =>
    refine keeps_bind (keeps_authorize _ _) fun ⟨receiver, amount⟩ => ?_
    exact keeps_bind keeps_require fun _ => keeps_bind (keeps_checkNotBlocklisted kept _) fun _ =>
      keeps_bind keeps_require fun _ => keeps_bind (keeps_read kept _ _) fun _ =>
      keeps_bind keeps_require fun _ => keeps_bind (keeps_write kept _ _ _) fun _ =>
      keeps_bind (keeps_balanceIncr kept _ _) fun _ => keeps_bind (keeps_emitEvent _ _) fun _ =>
      keeps_pure _
  | burn arguments =>
    refine keeps_bind (keeps_authorize _ _) fun ⟨sender, amount⟩ => ?_
    exact keeps_bind keeps_require fun _ => keeps_bind (keeps_checkNotBlocklisted kept _) fun _ =>
      keeps_bind keeps_require fun _ => keeps_bind (keeps_balanceDecr kept _ _) fun _ =>
      keeps_bind (keeps_read kept _ _) fun _ => keeps_bind (keeps_write kept _ _ _) fun _ =>
      keeps_bind (keeps_emitEvent _ _) fun _ => keeps_pure _
  | transfer arguments =>
    refine keeps_bind (keeps_authorize _ _) fun ⟨sender, receiver, amount⟩ => ?_
    refine keeps_bind keeps_require fun _ => keeps_bind (keeps_checkNotBlocklisted kept _) fun _ =>
      keeps_bind (keeps_checkNotBlocklisted kept _) fun _ => ?_
    dsimp only
    split_ifs
    · exact keeps_bind (keeps_transfer kept _ _ _) fun _ => keeps_bind (keeps_emitEvent _ _) fun _ =>
        keeps_pure _
    · exact keeps_bind (keeps_transfer kept _ _ _) fun _ => keeps_pure _
    · exact keeps_pure _
  | totalSupply arguments =>
    exact keeps_bind (keeps_decoded _) fun _ => keeps_bind (keeps_checkGasRemaining _) fun _ =>
      keeps_bind (keeps_read kept _ _) fun _ => keeps_pure _

theorem keeps_setBlocklisted (arguments : Option Address) (status : U256)
    (event : Address → LogData) (message : String) :
    Keeps holds (setBlocklisted hashes flags input arguments status event message) := by
  have writes : ∀ account, Keeps holds (do
      write nativeCoinControlAddress (hashes.isBlocklistedStorageSlot account) status
      emitEvent nativeCoinControlAddress (event account)
      pure (Output.flag true)) := fun account =>
    keeps_bind (keeps_write kept _ _ _) fun _ => keeps_bind (keeps_emitEvent _ _) fun _ =>
      keeps_pure _
  refine keeps_bind keeps_require fun _ => keeps_bind (keeps_decoded _) fun account =>
    keeps_bind keeps_require fun _ => ?_
  dsimp only
  split_ifs
  · exact keeps_bind keeps_require fun _ => keeps_bind (keeps_checkGasRemaining _) fun _ => writes account
  · exact keeps_bind (keeps_checkGasRemaining _) fun _ => keeps_bind keeps_require fun _ => writes account

theorem keeps_runNativeCoinControl (call : ControlCall) :
    Keeps holds (runNativeCoinControl hashes flags input call) := by
  cases call with
  | tooShort | invalidSelector => exact keeps_unknownCall _
  | blocklist arguments | unBlocklist arguments => exact keeps_setBlocklisted kept _ _ _ _
  | isBlocklisted arguments =>
    exact keeps_bind (keeps_decoded _) fun _ => keeps_bind (keeps_checkGasRemaining _) fun _ =>
      keeps_bind (keeps_isBlocklisted kept _) fun _ => keeps_pure _

theorem keeps_runSystemAccounting (call : AccountingCall) :
    Keeps holds (runSystemAccounting flags input call) := by
  cases call with
  | tooShort | invalidSelector => exact keeps_unknownCall _
  | storeGasValues arguments =>
    refine keeps_bind keeps_require fun _ => keeps_bind (keeps_decoded _) fun ⟨slot, packed⟩ => ?_
    exact keeps_bind keeps_require fun _ => keeps_bind keeps_require fun _ =>
      keeps_bind (keeps_write kept _ _ _) fun _ => keeps_pure _
  | getGasValues arguments =>
    exact keeps_bind (keeps_decoded _) fun _ => keeps_bind (keeps_read kept _ _) fun _ => keeps_pure _

end Programs

/-! ### Frames -/

section Frames

variable {env : Env} {registry : SubcallRegistry} {holds : Address → Account → Prop}
  {journal : EvmJournal}

theorem everywhere_runPrecompile {program : PrecompileM Output} (keeps : Keeps holds program)
    (everywhere : Everywhere holds journal) (gasLimit : ℕ) :
    Everywhere holds (runPrecompile program gasLimit journal).2 := by
  unfold runPrecompile
  cases ran : program.run (journal, Gas.new gasLimit) with
  | error failure => cases failure <;> exact everywhere
  | ok result => exact keeps (journal, Gas.new gasLimit) everywhere result.1 result.2 ran

theorem everywhere_completeSubcall (everywhere : Everywhere holds journal) (child : FrameResult)
    (continuation : SubcallContinuation) :
    Everywhere holds (completeSubcall child continuation journal).2 := by
  have entered : Everywhere holds journal.enter := everywhere
  obtain ⟨-, ⟨same, -⟩ | ⟨-, undone⟩⟩ := completeSubcall_spec child continuation journal
  · rw [same]
    exact everywhere
  · rw [undone]
    exact entered.revert _

variable (kept : Kept holds)

include kept

theorem keeps_precompileAt {call : CallInputs} {program : PrecompileM Output}
    (found : precompileAt env call = some program) : Keeps holds program := by
  unfold precompileAt at found
  dsimp only at found
  split_ifs at found
  · obtain rfl := Option.some.inj found
    exact keeps_runNativeCoinAuthority kept _
  · obtain rfl := Option.some.inj found
    exact keeps_runNativeCoinControl kept _
  · obtain rfl := Option.some.inj found
    exact keeps_runSystemAccounting kept _
  · obtain ⟨run, -, rfl⟩ := Option.map_eq_some_iff.mp found
    exact fun _ everywhere => ensures_pureProgram fun _ _ => everywhere

variable (everywhere : Everywhere holds journal)

include everywhere

theorem everywhere_callTransfer {call : CallInputs} {after : EvmJournal}
    (made : callTransfer env call journal = .ok after) : Everywhere holds after := by
  unfold callTransfer at made
  split at made
  · exact everywhere_transferLoaded kept everywhere made
  · obtain rfl := Except.ok.inj made
    exact everywhere

variable (depth : ℕ)

theorem everywhere_makeCallFrame (call : CallInputs) :
    Everywhere holds (makeCallFrame env depth call journal).2 := by
  have entered : Everywhere holds journal.enter := everywhere
  dsimp only [makeCallFrame]
  by_cases deep : callStackLimit < depth
  · rw [if_pos deep]
    exact everywhere
  rw [if_neg deep]
  cases paid : callTransfer env call journal.enter with
  | error failure => exact entered.revert _
  | ok after =>
    have paid_everywhere := everywhere_callTransfer kept entered paid
    dsimp only
    cases found : precompileAt env call with
    | some program =>
      have ran := everywhere_runPrecompile (keeps_precompileAt kept found) paid_everywhere
        call.gasLimit
      dsimp only
      split_ifs
      · exact ran
      · exact ran.revert _
    | none =>
      dsimp only
      split_ifs
      · exact paid_everywhere
      · exact paid_everywhere

theorem everywhere_makeCreateFrame (create : CreateInputs) :
    Everywhere holds (makeCreateFrame env depth create journal).2 := by
  have loaded := everywhere.of_warms kept (warms_loadAccount create.caller journal)
  dsimp only [makeCreateFrame]
  split_ifs
  · exact everywhere
  · exact loaded
  · exact loaded
  generalize (journal.cells create.caller).nonce = nonce
  have ready := (everywhere_bumpNonce kept loaded create.caller).of_warms kept
    (warms_loadAccount (create.createdAddress env.hashes nonce) _)
  generalize loadAccount (create.createdAddress env.hashes nonce)
    (bumpNonce create.caller (loadAccount create.caller journal)) = prepared at ready ⊢
  have entered : Everywhere holds prepared.enter := ready
  cases made : createAccount env.hashes create.caller (create.createdAddress env.hashes nonce)
      create.value prepared.enter with
  | error failure => exact entered.revert _
  | ok after => exact everywhere_createAccount kept entered made

variable (input : FrameInput)

theorem everywhere_initFrame : Everywhere holds (initFrame env depth input journal).2 := by
  cases input with
  | call call => exact everywhere_makeCallFrame kept everywhere depth call
  | create create => exact everywhere_makeCreateFrame kept everywhere depth create

theorem everywhere_initFrameWithLog (maybeLog : Option Log) :
    Everywhere holds (initFrameWithLog env depth input maybeLog journal).2 := by
  have plain : Everywhere holds (initFrame env depth input journal).2 :=
    everywhere_initFrame kept everywhere depth input
  unfold initFrameWithLog
  split_ifs
  · cases maybeLog with
    | none => exact plain
    | some log =>
      have logged : Everywhere holds (emitLog log journal.enter) := everywhere
      have started : Everywhere holds (initFrame env depth input _).2 :=
        everywhere_initFrame kept logged depth input
      dsimp only [initPrecompileFrameWithTransferLog]
      split_ifs
      · exact started
      · exact started.revert _
  · cases maybeLog with
    | none => exact plain
    | some log =>
      dsimp only [initDeferredFrameWithTransferLog]
      split_ifs <;> exact plain

theorem everywhere_checkedFrameInit :
    Everywhere holds (checkedFrameInit env depth input journal).2 := by
  have ready : Everywhere holds (beforeFrameInit env depth input journal).2.2 :=
    everywhere.of_warms kept (beforeFrameInit_spec depth input journal).1
  dsimp only [checkedFrameInit]
  cases (beforeFrameInit env depth input journal).1 with
  | reverted result => exact ready
  | log log | checked | none => exact everywhere_initFrameWithLog kept ready depth _ _

theorem everywhere_frameInit : Everywhere holds (frameInit env registry depth input journal).2 := by
  have made := @frameMade_frameInit env registry depth input journal
  have subcall : ∀ made, SubcallMade env registry depth input journal made →
      Everywhere holds made.2 := by
    rintro made (⟨warms, -, -⟩ | @⟨inputs, child, precompile, allowed, left, before, saved, made, -, -, -,
      warms, prepared, dispatch⟩)
    · exact everywhere.of_warms kept warms
    have started : Everywhere holds (checkedFrameInit env (depth + 1) (.call child) saved).2 :=
      everywhere_checkedFrameInit kept (everywhere.of_warms kept (warms.trans prepared.warms)) _ _
    obtain ⟨init, after⟩ := made
    cases init with
    | pushed frame continuation =>
      rw [dispatch.1] at started
      exact started
    | immediate result =>
      obtain ⟨outcome, middle, dispatched, completed⟩ := dispatch
      rw [dispatched] at started
      have completes := everywhere_completeSubcall started outcome
        (continuationFor inputs precompile left saved)
      rw [completed] at completes
      exact completes
  have started : Everywhere holds (checkedFrameInit env depth input journal).2 :=
    everywhere_checkedFrameInit kept everywhere depth input
  generalize frameInit env registry depth input journal = outcome at made ⊢
  cases made with
  | started made | ended made =>
    rw [made] at started
    exact started
  | subcall made | answered made => exact subcall _ made

/-! ### The machine -/

/-- What an action of the interpreter leaves. -/
def Interprets (holds : Address → Account → Prop) : Next → Prop
  | .running journal => Everywhere holds journal
  | .newFrame _ journal => Everywhere holds journal
  | .returned _ _ journal => Everywhere holds journal
  | .fatal => True

variable (frame : Frame)

theorem interprets_selfdestruct (target : Address) (host : HostConditions) :
    Interprets holds (arcNetworkSelfdestruct env frame target host journal) := by
  rcases arcNetworkSelfdestruct_cases env frame target host journal with
    fatal | ⟨result, output, left, ends, how⟩
  · rw [fatal]
    trivial
  rw [ends]
  rcases how with ⟨rfl, -⟩ | ⟨ready, rfl, found⟩
  · exact everywhere
  have ready_everywhere : Everywhere holds ready := by
    rcases found with ⟨-, rfl⟩ | ⟨rfl, -⟩
    · exact everywhere
    · exact everywhere.of_warms kept (warms_readSelfdestructParties _ _ _ _)
  have gone := @everywhere_selfdestruct _ env.hashes _ kept
    (ready_everywhere.of_warms kept (warms_loadAccount target _)) frame.targetAddress target
  show Everywhere holds (sweptJournal _ _ _ _ _)
  unfold sweptJournal
  split_ifs <;> exact gone

theorem interprets_interpret (action : Action) :
    Interprets holds (interpret env frame action journal) := by
  cases action with
  | call scheme target value input gasLimit =>
    dsimp only [interpret]
    split_ifs
    · exact everywhere
    · exact everywhere.of_warms kept (warms_loadAccount _ _)
  | create salt value initCode gasLimit =>
    dsimp only [interpret]
    split_ifs <;> exact everywhere
  | selfdestruct target host => exact interprets_selfdestruct kept everywhere frame target host
  | sstore key value =>
    dsimp only [interpret]
    split_ifs
    · exact everywhere
    · exact everywhere_sstore kept everywhere _ _ _
  | log topics data =>
    dsimp only [interpret]
    split_ifs <;> exact everywhere
  | finish result output remaining refunded codeRejected => exact everywhere
  | databaseFails => trivial

theorem everywhere_processReturn (outcome : InterpreterResult) (codeRejected : Bool) :
    Everywhere holds (processReturn frame outcome codeRejected journal).2 := by
  have left : Everywhere holds journal.leave := everywhere
  unfold processReturn
  cases frame.creates with
  | none =>
    dsimp only
    split_ifs
    · exact left
    · exact everywhere.revert _
  | some address =>
    dsimp only
    split_ifs
    · exact everywhere.revert _
    · exact everywhere.revert _
    · exact everywhere_setCode kept left _ _

omit kept everywhere in
theorem journal_deliver (result : FrameResult) (journal : EvmJournal) (below : List Frame)
    (continuations : ℕ → Option SubcallContinuation) :
    (deliver result journal below continuations).journal = journal := by
  cases below <;> rfl

omit everywhere in
theorem everywhere_step (machine : Machine) (action : Action)
    (everywhere : Everywhere holds machine.journal) :
    Everywhere holds (step env registry machine action).1.journal := by
  unfold step
  cases machine.ending with
  | some ending => exact everywhere
  | none =>
    cases machine.stack with
    | nil => exact everywhere
    | cons frame below =>
      have interprets : Interprets holds (interpret env frame action machine.journal) :=
        interprets_interpret kept everywhere frame action
      dsimp only
      generalize interpret env frame action machine.journal = next at interprets ⊢
      cases next with
      | running journal => exact interprets
      | fatal => exact everywhere
      | newFrame input journal =>
        have started : Everywhere holds (frameInit env registry (frame.depth + 1) input journal).2 :=
          everywhere_frameInit kept interprets (frame.depth + 1) input
        dsimp only
        generalize frameInit env registry (frame.depth + 1) input journal = outcome at started ⊢
        obtain ⟨outcome, after⟩ := outcome
        cases outcome with
        | item child continuation | result result => exact started
      | returned outcome codeRejected journal =>
        have ended := everywhere_processReturn kept interprets frame outcome codeRejected
        dsimp only [frameReturnResult]
        cases continuationOf machine.continuations frame with
        | none =>
          rw [journal_deliver]
          exact ended
        | some continuation =>
          rw [journal_deliver]
          exact everywhere_completeSubcall ended _ _

theorem everywhere_start : Everywhere holds (start env registry input journal).1.journal := by
  have started : Everywhere holds (frameInit env registry 0 input journal).2 :=
    everywhere_frameInit kept everywhere 0 input
  dsimp only [start]
  generalize frameInit env registry 0 input journal = outcome at started ⊢
  obtain ⟨outcome, after⟩ := outcome
  cases outcome with
  | item frame continuation | result result => exact started

end Frames

/-! ### Transactions -/

section Transactions

variable {env : Env} {block : BlockEnv} {tx : TxEnv} {world : World}
  {holds : Address → Account → Prop} (kept : Kept holds)

include kept

theorem everywhere_applyAuthorization {state : EvmJournal × ℕ}
    (everywhere : Everywhere holds state.1) (entry : Authorization) :
    Everywhere holds (applyAuthorization state entry).1 := by
  unfold applyAuthorization
  cases entry.authority with
  | none => exact everywhere
  | some authority =>
    have loaded := everywhere.of_warms kept (warms_loadAccount authority _)
    have coded := fun code => everywhere_bumpNonce kept
      (everywhere_setCode kept loaded authority code) authority
    dsimp only
    split_ifs
    all_goals first | exact everywhere | skip
    all_goals
      split
      · exact loaded
      · first | exact loaded | exact coded _

theorem everywhere_applyAuthorizations (authorizations : List Authorization)
    {state : EvmJournal × ℕ} (everywhere : Everywhere holds state.1) :
    Everywhere holds (authorizations.foldl applyAuthorization state).1 := by
  induction authorizations generalizing state with
  | nil => exact everywhere
  | cons entry rest ih => exact ih (everywhere_applyAuthorization kept everywhere entry)

variable (begins : ∀ address, holds address (initialAccount env block tx world address))

include begins

theorem everywhere_opening : Everywhere holds (opening env block tx world) := by
  have first : Everywhere holds (initialJournal env block tx world) := always_new begins
  have read := first.of_warms kept (warms_readParties env block tx world)
  have paid : Everywhere holds (deductCaller block tx (readParties env tx
      (loadAccount nativeCoinControlAddress (initialJournal env block tx world)))) := by
    refine everywhere_modifyAccount kept read (.pays _ _ true ?_)
    split_ifs
    · exact Nat.le_succ _
    · exact le_rfl
  have granted : Everywhere holds (preExecution env block tx world).1 := by
    unfold preExecution applyAuthorizations
    split
    · exact paid
    · exact everywhere_applyAuthorizations kept _ paid
  unfold opening loadRecipient
  split
  · exact granted
  · exact granted.of_warms kept (warms_loadAccount _ _)

/-- **A property of accounts that every change keeps holds whenever a transaction looks.** -/
theorem everywhere_execute (actions : List Action) :
    Everywhere holds (execute env block tx world actions).journal := by
  have opened : Everywhere holds (opening env block tx world) := everywhere_opening kept begins
  have started : Everywhere holds (start (env.during tx) (buildSubcallRegistry (env.during tx))
      (firstFrameInput tx (opening env block tx world)) (opening env block tx world)).1.journal :=
    everywhere_start kept opened _
  exact run_kept (everywhere_step kept) actions started

theorem holds_of_executed (actions : List Action) (settlement : Settlement) (address : Address) :
    holds address ((settled block tx settlement
      (execute env block tx world actions).journal).cells address) := by
  have incremented : ∀ address amount ready, Everywhere holds ready →
      Everywhere holds (incrBalance address amount ready) := fun address amount ready before =>
    everywhere_modifyAccount kept before (.pays _ (ready.cells address).nonce true le_rfl)
  have final : Everywhere holds
      (settled block tx settlement (execute env block tx world actions).journal) :=
    incremented _ _ _ (incremented _ _ _ (everywhere_execute kept begins actions))
  exact final.now address

omit kept begins

/-- An account that was there before the transaction. -/
structure Rooted (account : Account) : Prop where
  nonce : account.nonce ≠ 0
  old : account.created = false
  stands : account.destroyed = false

theorem kept_rooted (root : Address) :
    Kept fun address account => address = root → Rooted account := by
  intro address account after modified before here
  obtain ⟨nonce, old, stands⟩ := before here
  cases modified with
  | warms warm warmSlots => exact ⟨nonce, old, stands⟩
  | pays balance count warm more => exact ⟨fun zero => nonce (Nat.le_zero.mp (zero ▸ more)), old, stands⟩
  | stores storage | codes code => exact ⟨nonce, old, stands⟩
  | born fresh bare => exact (nonce fresh).elim
  | dies created => exact (Bool.false_ne_true (old.symm.trans created)).elim

theorem rooted_of_executed {root : Address} (alive : (world.accounts root).nonce ≠ 0)
    (actions : List Action) (settlement : Settlement) :
    Rooted ((settled block tx settlement (execute env block tx world actions).journal).cells root) :=
  holds_of_executed (kept_rooted root)
    (fun _ here => ⟨fun zero => alive (here ▸ zero), rfl, rfl⟩) actions settlement root rfl

theorem Rooted.commit {account : Account} (rooted : Rooted account) :
    account.commit = ⟨account.balance, account.nonce, account.code, account.storage⟩ := by
  have present : (account.destroyed || (account.touched && account.isEmpty)) = false := by
    rw [rooted.stands, Account.isEmpty, decide_eq_false rooted.nonce]
    simp
  rw [Account.commit, present]
  rfl

theorem nonce_of_transact {actions : List Action} {receipt : Receipt}
    {accounts : Address → StoredAccount}
    (executed : transact env block tx world actions = .executed receipt accounts) {root : Address}
    (alive : (world.accounts root).nonce ≠ 0) : (accounts root).nonce ≠ 0 := by
  obtain ⟨settlement, done⟩ := executed_of_transact executed
  have rooted := @rooted_of_executed env block tx world root alive actions settlement
  rw [done.accounts]
  dsimp only
  rw [rooted.commit]
  exact rooted.nonce

/-! ### The state of a transaction -/

/-- The accounts that a transaction touched, as they are afterwards. -/
abbrev StateUpdate := Address → Option StoredAccount

/-- `DatabaseCommit::commit`: touched accounts replace those of the database. -/
def StateUpdate.apply (update : StateUpdate) (accounts : Address → StoredAccount) (address : Address) :
    StoredAccount :=
  (update address).getD (accounts address)

/-- `finalize` of the journal: what is not touched is not part of the state. -/
def finalize (journal : EvmJournal) : StateUpdate := fun address =>
  if (journal.cells address).touched then some (journal.cells address).commit else none

def finalJournal (env : Env) (block : BlockEnv) (tx : TxEnv) (world : World) (actions : List Action) :
    EvmJournal :=
  let machine := execute env block tx world actions
  match machine.ending with
  | some (.finished result) =>
    settled block tx (settleGas tx (preExecution env block tx world).2 result) machine.journal
  | _ => machine.journal

def Untouched (base : Address → StoredAccount) (address : Address) (account : Account) : Prop :=
  account.touched = false →
    ⟨account.balance, account.nonce, account.code, account.storage⟩ = base address ∧
      account.created = false ∧ account.destroyed = false

theorem kept_untouched (base : Address → StoredAccount) : Kept (Untouched base) := by
  intro address account after modified before untouched
  cases modified with
  | warms warm warmSlots => exact before untouched
  | pays balance nonce warm more | stores storage | codes code | born fresh bare => cases untouched
  | dies created => exact (Bool.false_ne_true ((before untouched).2.1.symm.trans created)).elim

theorem apply_finalize {base : Address → StoredAccount} {journal : EvmJournal}
    (untouched : ∀ address, Untouched base address (journal.cells address)) :
    (finalize journal).apply base = fun address => (journal.cells address).commit := by
  funext address
  unfold StateUpdate.apply finalize
  split_ifs with touched
  · rfl
  · obtain ⟨same, -, stands⟩ := untouched address (Bool.eq_false_iff.mpr touched)
    rw [Option.getD_none, ← same, Account.commit, stands, Bool.eq_false_iff.mpr touched]
    rfl

theorem accounts_of_transact {actions : List Action} {receipt : Receipt}
    {accounts : Address → StoredAccount}
    (executed : transact env block tx world actions = .executed receipt accounts) :
    accounts = (finalize (finalJournal env block tx world actions)).apply world.accounts := by
  obtain ⟨settlement, done⟩ := executed_of_transact executed
  obtain ⟨result, ended, rfl⟩ := done.ended
  have final : finalJournal env block tx world actions = settled block tx
      (settleGas tx (preExecution env block tx world).2 result)
      (execute env block tx world actions).journal := by
    dsimp only [finalJournal]
    rw [ended]
  rw [done.accounts, final]
  refine (apply_finalize ?_).symm
  exact holds_of_executed (kept_untouched world.accounts) (fun _ _ => ⟨rfl, rfl, rfl⟩) actions _

end Transactions

end ArcNode.Evm
