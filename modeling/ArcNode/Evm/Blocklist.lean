/-
**The blocklist is enforced on every path of value.**

Four checks guard the coins of a blocked account: that of the whole transaction, that of a new
frame, that of SELFDESTRUCT and those of NativeCoinAuthority. Each of them stops the operation it
guards (`frameInit_blocked`, `selfdestruct_blocked`, `transact_blocked`), and together they
leave no way around: every move of coins on record had unblocked parties when it was made, the moves
explain every balance (`watched_execute`), and an account that is blocked throughout takes part in
none (`apart_execute`).
-/

import Mathlib
import ArcNode.Evm.Supply

namespace ArcNode.Evm

open ArcNode.Lib ArcNode.Lib.Journal ArcNode.Types

/-! ### Who takes part in an operation -/

/-- The accounts that a call to NativeCoinAuthority debits or credits. -/
def AuthorityCall.parties : AuthorityCall → List Address
  | .mint (some (receiver, _)) => [receiver]
  | .burn (some (sender, _)) => [sender]
  | .transfer (some (sender, receiver, _)) => [sender, receiver]
  | _ => []

/-- The accounts that a frame debits or credits when it starts: those of its value, and those of a
call to NativeCoinAuthority. -/
def parties (env : Env) (journal : EvmJournal) : FrameInput → List Address
  | .call inputs =>
    (if inputs.scheme = .call ∧ inputs.amount ≠ 0 then [inputs.caller, inputs.targetAddress] else []) ++
      if inputs.bytecodeAddress = nativeCoinAuthorityAddress then
        (env.authorityCall inputs.input).parties
      else []
  | .create inputs =>
    if inputs.value ≠ 0 then
      [inputs.caller, inputs.createdAddress env.hashes (journal.cells inputs.caller).nonce]
    else []

/-! ### The checks stop the operations -/

section Checks

variable {env : Env} {journal : EvmJournal} {address : Address} {depth : ℕ}

theorem ensures_false_of_blocked {input : PrecompileInput} {call : AuthorityCall}
    {state : EvmJournal × Gas} (takesPart : address ∈ call.parties)
    (blocked : (view env.hashes state.1).blocked address = true) :
    Ensures (runNativeCoinAuthority env.hashes env.flags input call) state fun _ _ => False := by
  have barred : ∀ {other : Address} {seen : EvmJournal}, Warms state.1 seen →
      (view env.hashes seen).blocked other = false → address ≠ other := by
    rintro other seen warms clear rfl
    rw [warms.view_eq, blocked] at clear
    cases clear
  cases call with
  | tooShort | invalidSelector | totalSupply arguments => cases takesPart
  | mint arguments | burn arguments =>
    dsimp only [runNativeCoinAuthority, mint, burn]
    refine ensures_bind (ensures_authorize fun values given => ?_)
    subst given
    refine ensures_bind (ensures_require fun _ => ?_)
    refine ensures_bind (ensures_checkNotBlocklisted fun _ _ _ clear => ?_)
    exact (barred (Warms.refl _) clear (List.mem_singleton.mp takesPart)).elim
  | transfer arguments =>
    show Ensures (transferFrom env.hashes env.flags input arguments) state _
    unfold transferFrom
    refine ensures_bind (ensures_authorize fun values given => ?_)
    subst given
    refine ensures_bind (ensures_require fun _ => ?_)
    refine ensures_bind (ensures_checkNotBlocklisted fun _ _ warms clear => ?_)
    refine ensures_bind (ensures_checkNotBlocklisted fun _ _ _ clear' => ?_)
    have either : address = values.1 ∨ address = values.2.1 := by
      simpa [AuthorityCall.parties] using takesPart
    rcases either with same | same
    · exact (barred (Warms.refl _) clear same).elim
    · exact (barred warms clear' same).elim

theorem runPrecompile_fails {program : PrecompileM Output} {gasLimit : ℕ}
    (never : Ensures program (journal, Gas.new gasLimit) fun _ _ => False) :
    (runPrecompile program gasLimit journal).1.result.isOk = false := by
  unfold runPrecompile
  cases ran : program.run (journal, Gas.new gasLimit) with
  | ok final => exact (never final.1 final.2 ran).elim
  | error failure => cases failure <;> rfl

theorem paying_blocked (ledger : Ledger Address) (move : Option (Move Address)) :
    (paying ledger move).blocked = ledger.blocked := by
  cases move <;> rfl

/-- A call to NativeCoinAuthority with a blocked party fails, whatever value it carries. -/
theorem makeCallFrame_blocked {inputs : CallInputs}
    (authority : inputs.bytecodeAddress = nativeCoinAuthorityAddress)
    (takesPart : address ∈ (env.authorityCall inputs.input).parties)
    (blocked : (view env.hashes journal).blocked address = true) :
    ∃ result, (makeCallFrame env depth inputs journal).1 = .result result ∧ result.isOk = false := by
  dsimp only [makeCallFrame]
  by_cases deep : callStackLimit < depth
  · rw [if_pos deep]
    exact ⟨_, rfl, rfl⟩
  rw [if_neg deep]
  cases transferred : callTransfer env inputs journal.enter with
  | error failure =>
    refine ⟨_, rfl, ?_⟩
    cases failure <;> rfl
  | ok sent =>
    obtain ⟨-, seen, -⟩ := callTransfer_view transferred
    have still : (view env.hashes sent).blocked address = true := by
      rw [seen]
      exact (congrFun (paying_blocked _ _) address).trans blocked
    unfold precompileAt
    rw [if_pos authority]
    exact ⟨_, rfl, runPrecompile_fails (ensures_false_of_blocked takesPart still)⟩

theorem initFrameWithLog_fails {inputs : CallInputs}
    (fails : ∀ start, (view env.hashes start).blocked = (view env.hashes journal).blocked →
      ∃ result, (makeCallFrame env depth inputs start).1 = .result result ∧ result.isOk = false)
    (maybeLog : Option Log) :
    ∃ result, (initFrameWithLog env depth (.call inputs) maybeLog journal).1 = .result result ∧
      result.isOk = false := by
  unfold initFrameWithLog initPrecompileFrameWithTransferLog initDeferredFrameWithTransferLog
  cases maybeLog with
  | none =>
    split_ifs
    · exact fails journal rfl
    · exact fails journal rfl
  | some log =>
    split_ifs
    · exact fails (emitLog log journal.enter) rfl
    · exact fails journal rfl

theorem Payable.not_blocked {ledger : Ledger Address} {sender receiver address : Address}
    (payable : Payable (Policed env) ledger sender receiver) (police : Policed env)
    (takesPart : address ∈ [sender, receiver]) (blocked : ledger.blocked address = true) : False := by
  obtain ⟨sends, receives⟩ := payable.unblocked police
  rcases List.mem_pair.mp takesPart with rfl | rfl
  · cases blocked.symm.trans sends
  · cases blocked.symm.trans receives

theorem checkTransfer_blocked (police : Policed env) {sender receiver address : Address}
    {amount : U256} {input : FrameInput} (something : amount ≠ 0)
    (takesPart : address ∈ [sender, receiver])
    (blocked : (view env.hashes journal).blocked address = true) :
    ∃ result, (checkTransfer env (some (sender, receiver, amount)) input journal).1 =
      .reverted result := by
  obtain ⟨-, -, allows⟩ := @checkTransfer_spec env sender receiver amount input journal
  rcases reverted_or_told (checkTransfer env (some (sender, receiver, amount)) input journal).1 with
    refused | ⟨told, verdict⟩
  · exact refused
  · exact (((allows told verdict).2 something).not_blocked police takesPart blocked).elim

theorem childSucceeded_of_failed {result : FrameResult} (failed : result.isOk = false) :
    childSucceeded result = false := by
  cases result with
  | call outcome => exact failed
  | create outcome address => rfl

/-- A frame that did not start, did not succeed, and left no trace in the ledger. -/
def RefusedAt (env : Env) (journal : EvmJournal) (result : FrameResult) (after : EvmJournal) : Prop :=
  result.isOk = false ∧ view env.hashes after = view env.hashes journal

theorem checkedFrameInit_call_blocked (police : Policed env) {inputs : CallInputs}
    (takesPart : address ∈ parties env journal (.call inputs))
    (blocked : (view env.hashes journal).blocked address = true) :
    ∃ result after, checkedFrameInit env depth (.call inputs) journal = (.result result, after) ∧
      RefusedAt env journal result after := by
  obtain ⟨warms, refuses, handed⟩ := @beforeFrameInit_spec env depth (.call inputs) journal
  have begun := @started_checkedFrameInit env depth (.call inputs) journal
  rcases reverted_or_told (beforeFrameInit env depth (.call inputs) journal).1 with
    ⟨result, refused⟩ | ⟨told, verdict⟩
  · rw [checkedFrameInit_of_reverted refused]
    exact ⟨result, _, rfl, (refuses result refused).1, warms.view_eq env.hashes⟩
  have authority : inputs.bytecodeAddress = nativeCoinAuthorityAddress ∧
      address ∈ (env.authorityCall inputs.input).parties := by
    rcases List.mem_append.mp takesPart with paying | calling
    · split_ifs at paying with moves
      · have params : extractCallTransferParams inputs =
            some (inputs.caller, inputs.targetAddress, inputs.amount) := by
          unfold extractCallTransferParams
          rw [moves.1]
          rfl
        obtain ⟨result, refused⟩ :=
          @checkTransfer_blocked _ _ police _ _ _ _ (.call inputs) moves.2 paying blocked
        dsimp only [beforeFrameInit] at verdict
        rw [params, refused] at verdict
        cases verdict
      · cases paying
    · split_ifs at calling with here
      · exact ⟨here, calling⟩
      · cases calling
  rw [checkedFrameInit_of_told verdict] at begun ⊢
  rw [show (beforeFrameInit env depth (.call inputs) journal).2.1 = _ from handed] at begun ⊢
  have seen := warms.view_eq env.hashes
  obtain ⟨result, ended, failed⟩ := initFrameWithLog_fails (fun start same =>
    makeCallFrame_blocked authority.1 authority.2 ((congrFun (same.trans (by rw [seen])) address).trans
      blocked)) told
  generalize initFrameWithLog env depth (.call inputs) told
    (beforeFrameInit env depth (.call inputs) journal).2.2 = started at begun ended ⊢
  obtain ⟨outcome, after⟩ := started
  cases ended
  exact ⟨result, after, rfl, failed,
    (begun.1.quiet inputs rfl (childSucceeded_of_failed failed)).view_eq env.hashes⟩

theorem checkedFrameInit_create_blocked (police : Policed env) {inputs : CreateInputs}
    (allowed : Allowed env depth journal (.create inputs))
    (takesPart : address ∈ parties env journal (.create inputs))
    (blocked : (view env.hashes journal).blocked address = true) :
    ∃ result after, checkedFrameInit env depth (.create inputs) journal = (.result result, after) ∧
      RefusedAt env journal result after := by
  obtain ⟨warms, refuses, -⟩ := @beforeFrameInit_spec env depth (.create inputs) journal
  rcases reverted_or_told (beforeFrameInit env depth (.create inputs) journal).1 with
    ⟨result, refused⟩ | ⟨told, verdict⟩
  · rw [checkedFrameInit_of_reverted refused]
    exact ⟨result, _, rfl, (refuses result refused).1, warms.view_eq env.hashes⟩
  · dsimp only [parties] at takesPart
    split_ifs at takesPart with something
    · exact (((told_create allowed verdict).2 something).not_blocked police takesPart blocked).elim
    · cases takesPart

/-- The inputs of frames that instructions and transactions ask for. -/
def Wanted (env : Env) (depth : ℕ) (journal : EvmJournal) : FrameInput → Prop
  | .call inputs => inputs.scheme = .call → inputs.targetAddress = inputs.bytecodeAddress
  | .create inputs => Allowed env depth journal (.create inputs)

/-- **A new frame with a blocked party is not started**: no frame is pushed, the result is a failure
and the ledger stays as it was. -/
theorem frameInit_blocked (police : Policed env) {input : FrameInput}
    (wanted : Wanted env depth journal input) (takesPart : address ∈ parties env journal input)
    (blocked : (view env.hashes journal).blocked address = true) :
    ∃ result after, frameInit env (buildSubcallRegistry env) depth input journal =
        (.result result, after) ∧ RefusedAt env journal result after := by
  have checked : ∃ result after, checkedFrameInit env depth input journal = (.result result, after) ∧
      RefusedAt env journal result after := by
    cases input with
    | call inputs => exact checkedFrameInit_call_blocked police takesPart blocked
    | create inputs => exact checkedFrameInit_create_blocked police wanted takesPart blocked
  obtain ⟨refusal, left, ends, refused⟩ := checked
  -- a call that CallFrom takes moves no coins itself
  have idle : ∀ {inputs child : CallInputs} {precompile : SubcallPrecompile}
      {allowed : AllowedCallers} {remaining : Gas} {before saved : EvmJournal},
      input = .call inputs → buildSubcallRegistry env inputs.targetAddress = some (precompile, allowed) →
      Prepared env inputs precompile before child remaining saved → False := by
    rintro inputs child precompile allowed remaining before saved rfl registered prepared
    obtain ⟨here, -, -⟩ := buildSubcallRegistry_eq registered
    have sited := wanted prepared.scheme
    dsimp only [parties] at takesPart
    rw [if_neg fun moves => moves.2 prepared.noValue, ← sited, here, if_neg (by decide)] at takesPart
    cases takesPart
  have made := @frameMade_frameInit env (buildSubcallRegistry env) depth input journal
  generalize frameInit env (buildSubcallRegistry env) depth input journal = started at made ⊢
  cases made with
  | started made =>
    rw [made] at ends
    cases ends
  | ended made =>
    rw [made] at ends
    cases ends
    exact ⟨_, _, rfl, refused⟩
  | subcall made =>
    cases made with
    | dispatched call registered _ _ prepared _ => exact (idle call registered prepared).elim
  | answered made =>
    cases made with
    | rejected warms failed _ => exact ⟨_, _, rfl, failed, warms.view_eq env.hashes⟩
    | dispatched call registered _ _ prepared _ => exact (idle call registered prepared).elim

theorem wanted_of_issued {frame : Frame} {input : FrameInput}
    (issued : Issued frame input) : Wanted env (depth + 1) journal input := by
  cases input with
  | create inputs => exact ⟨issued.2.2, fun top => nomatch top⟩
  | call inputs =>
    obtain ⟨scheme, target, value, data, gasLimit, bytecode, rfl, -⟩ := issued
    cases scheme with
    | call => exact fun _ => rfl
    | callCode | delegateCall | staticCall => exact fun other => nomatch other

/-- **SELFDESTRUCT of coins with a blocked party fails**: the frame ends without success and with
the journal as it was, or the read of the blocklist failed and the whole transaction with it. -/
theorem selfdestruct_blocked (police : Policed env) {frame : Frame} {target address : Address}
    {host : HostConditions} (something : (journal.cells frame.targetAddress).balance ≠ 0)
    (takesPart : address ∈ [frame.targetAddress, target])
    (blocked : (view env.hashes journal).blocked address = true) :
    interpret env frame (.selfdestruct target host) journal = .fatal ∨
      ∃ outcome, interpret env frame (.selfdestruct target host) journal =
        .returned outcome false journal ∧ outcome.result.isOk = false := by
  rcases arcNetworkSelfdestruct_cases env frame target host journal with
    fatal | ⟨result, output, left, ends, ⟨rfl, failed⟩ | ⟨ready, -, ⟨empty, -⟩ | ⟨-, -, payable⟩⟩⟩
  · exact .inl fatal
  · exact .inr ⟨_, ends, failed⟩
  · exact (something empty).elim
  · exact (payable.not_blocked police takesPart blocked).elim

end Checks

/-! ### Whole transactions -/

/-- The word that NativeCoinControl stores for an address says that it is blocked. -/
def storedBlocklisted (hashes : Hashes) (accounts : Address → StoredAccount) (address : Address) :
    Bool :=
  isBlocklistedStatus ((accounts nativeCoinControlAddress).storage
    (hashes.isBlocklistedStorageSlot address))

section Transaction

variable {env : Env} {block : BlockEnv} {tx : TxEnv} {world : World} {actions : List Action}

variable {address : Address}

/-- A transaction with a blocked sender, or with value for a blocked recipient, does not start. -/
theorem transact_blocked
    (takesPart : address = tx.caller ∨ tx.value ≠ 0 ∧ ∃ list, tx.kind = .call address list)
    (blocked : storedBlocklisted env.hashes world.accounts address = true) (actions : List Action) :
    ∃ failure, transact env block tx world actions = .rejected failure ∧
      (validate block tx = none → failure = .str errBlockedAddress) := by
  have listed : blocklisted env.hashes (initialJournal env block tx world) address = true := blocked
  have checked : checkBlocklist env tx (initialJournal env block tx world) =
      some (.str errBlockedAddress) := by
    unfold checkBlocklist
    rcases takesPart with rfl | ⟨something, list, kind⟩
    · rw [if_pos listed]
    · rw [kind]
      dsimp only
      split_ifs with sender recipient
      · rfl
      · rfl
      · exact (recipient ⟨something, listed⟩).elim
  cases first : validate block tx with
  | some failure =>
    refine ⟨failure, ?_, fun passed => nomatch passed⟩
    simp only [transact, refusal, first]
  | none =>
    refine ⟨_, ?_, fun _ => rfl⟩
    simp only [transact, refusal, first, checked]

/-- The moves on record had unblocked parties, and they explain every balance. -/
structure Watched (block : BlockEnv) (tx : TxEnv) (world : World) (ledger : Ledger Address) : Prop where
  clean : Ledger.Clean ledger
  accounted : Ledger.Accounted (2 ^ 256) (purchased block tx world) ledger

theorem watched_execute (police : Policed env) (admitted : Admitted env block tx world) :
    Upheld env block tx world actions (Watched block tx world) := by
  have kept : ∀ blocked, KeptFrom env (Watched block tx world) blocked := fun _ _ _ _ turn held =>
    turn.keeps (fun step held => ⟨step.clean police held.clean, step.accounted held.accounted⟩)
      (fun _ _ held => ⟨held.clean, held.accounted⟩) held
  refine execute_keeps admitted ?_ (kept _) fun _ _ => kept _
  obtain ⟨alive, seen, -⟩ := (purchased_opening admitted).seen
  rw [seen]
  exact ⟨(fun _ none => nomatch none), fun _ => Nat.ModEq.refl _⟩

theorem Admitted.not_sender (admitted : Admitted env block tx world)
    (blocked : storedBlocklisted env.hashes world.accounts address = true) : address ≠ tx.caller := by
  rintro rfl
  have clear : storedBlocklisted env.hashes world.accounts tx.caller = false := admitted.sender
  cases blocked.symm.trans clear

theorem apart_execute (police : Policed env) (admitted : Admitted env block tx world)
    (before : storedBlocklisted env.hashes world.accounts address = true)
    (throughout : ∀ front, front <+: actions →
      blocklisted env.hashes (execute env block tx world front).journal address = true) :
    Upheld env block tx world actions (Ledger.Apart address (world.accounts address).balance.val) := by
  have kept : ∀ blocked : Address → Bool, blocked address = true → KeptFrom env
      (Ledger.Apart address (world.accounts address).balance.val) blocked :=
    fun _ barred _ _ same turn held =>
      turn.apart police (world.accounts address).balance.isLt (same ▸ barred) held
  obtain ⟨alive, seen, -⟩ := (purchased_opening admitted).seen
  have opened : (view env.hashes (opening env block tx world)).blocked address = true := by
    rw [seen]
    exact before
  refine execute_keeps admitted ?_ (kept _ opened) fun front beginning =>
    kept _ (throughout front beginning)
  rw [seen]
  refine ⟨(fun _ none => nomatch none), ?_, fun destroyed => nomatch destroyed⟩
  show purchased block tx world address = _
  rw [purchased, if_neg (admitted.not_sender before)]

/-- What the settlement and the commit do to an account that took part in nothing. -/
theorem balance_of_apart {receipt : Receipt} {accounts : Address → StoredAccount}
    {settlement : Settlement}
    (executed : Executed env block tx world actions receipt accounts settlement)
    (notSender : address ≠ tx.caller)
    (apart : Ledger.Apart address (world.accounts address).balance.val
      (view env.hashes (execute env block tx world actions).journal)) :
    (accounts address).balance = (world.accounts address).balance ∨
      address = block.beneficiary ∧
        (accounts address).balance = U256.saturatingAdd (world.accounts address).balance
          (Fin.ofNat _ (tx.effectiveGasPrice block * receipt.gasUsed)) := by
  obtain ⟨-, balance, emptied⟩ := apart
  have fee : totalFeeAmount block tx settlement = tx.effectiveGasPrice block * receipt.gasUsed := by
    rw [totalFeeAmount, executed.gasUsed]
  rw [executed.accounts, ← fee]
  generalize (execute env block tx world actions).journal = journal at balance emptied ⊢
  have same : (journal.cells address).balance = (world.accounts address).balance := Fin.ext balance
  have repaid : (reimburseCaller block tx settlement journal).cells address =
      journal.cells address := by
    unfold reimburseCaller incrBalance
    exact modifyAccount_of_ne notSender _ _
  show ((settled block tx settlement journal).cells address).commit.balance = _ ∨ _ ∧
    ((settled block tx settlement journal).cells address).commit.balance = _
  by_cases rewarded : address = block.beneficiary
  · have credited : ((settled block tx settlement journal).cells address).balance =
        U256.saturatingAdd (journal.cells address).balance
          (Fin.ofNat _ (totalFeeAmount block tx settlement)) := by
      rw [← repaid]
      unfold settled rewardBeneficiary incrBalance
      rw [rewarded, modifyAccount_self]
    have destroyed : ((settled block tx settlement journal).cells address).destroyed =
        (journal.cells address).destroyed := settled_field (fun _ _ => rfl) _ _ _
    by_cases gone : (journal.cells address).destroyed = true
    · left
      have nothing : (world.accounts address).balance = 0 := Fin.ext (emptied gone)
      rw [nothing]
      unfold Account.commit
      rw [if_pos (by rw [destroyed, gone]; rfl)]
      rfl
    · right
      refine ⟨rewarded, ?_⟩
      rw [commit_balance fun dead => (gone (destroyed ▸ dead)).elim, credited, same]
  · left
    have kept : (settled block tx settlement journal).cells address = journal.cells address := by
      unfold settled rewardBeneficiary incrBalance
      rw [modifyAccount_of_ne rewarded, repaid]
    rw [kept, commit_balance, same]
    intro gone
    rw [same]
    exact Fin.ext (emptied gone)

/-- **The blocklist is enforced on every path of value.** A transaction of a blocked sender, or with
value for a blocked recipient, is rejected. In every state that a transaction reaches, every move of
coins so far had unblocked parties at its moment, and the balances are what those moves make them. A
frame that would debit or credit a blocked account is not started, be it asked for by the
transaction, by an instruction or by a subcall, and SELFDESTRUCT does not sweep coins from or to
one. An account that is blocked in every state of an executed transaction has the balance that it
had, but for the fee if it is the beneficiary. -/
theorem blocklist_enforced (env : Env) (block : BlockEnv) (tx : TxEnv) (world : World)
    (actions : List Action) (active : env.flags.isActive .zero7 = true) :
    (∀ address, address = tx.caller ∨ (tx.value ≠ 0 ∧ ∃ list, tx.kind = .call address list) →
      storedBlocklisted env.hashes world.accounts address = true →
      ∃ failure, transact env block tx world actions = .rejected failure ∧
        (validate block tx = none → failure = .str errBlockedAddress)) ∧
    (refusal env block tx world = none →
      let ledger := view env.hashes (execute env block tx world actions).journal
      (∀ move ∈ ledger.moves, move.blocked = false) ∧
      (∀ address, ledger.balance address + debits ledger.moves address ≡
        purchased block tx world address + credits ledger.moves address [MOD 2 ^ 256]) ∧
      ∀ address ∈ parties env (opening env block tx world)
          (firstFrameInput tx (opening env block tx world)),
        blocklisted env.hashes (opening env block tx world) address = true →
        ∃ result after, begin env block tx world = ⟨after, [], fun _ => none, some (.finished result)⟩ ∧
          RefusedAt env (opening env block tx world) result after) ∧
    (∀ frame action journal input loaded,
      interpret (env.during tx) frame action journal = .newFrame input loaded →
      ∀ address ∈ parties env loaded input, blocklisted env.hashes loaded address = true →
        ∃ result after, frameInit (env.during tx) (buildSubcallRegistry (env.during tx))
            (frame.depth + 1) input loaded = (.result result, after) ∧
          RefusedAt env loaded result after) ∧
    (∀ inputs precompile child left journal saved depth,
      prepareSubcall (env.during tx) inputs precompile journal = (.ok (child, left), saved) →
      ∀ address ∈ parties env saved (.call child), blocklisted env.hashes saved address = true →
        ∃ result after, checkedFrameInit (env.during tx) depth (.call child) saved =
            (.result result, after) ∧ RefusedAt env saved result after) ∧
    (∀ frame target host journal, (journal.cells frame.targetAddress).balance ≠ 0 →
      ∀ address ∈ [frame.targetAddress, target], blocklisted env.hashes journal address = true →
        interpret (env.during tx) frame (.selfdestruct target host) journal = .fatal ∨
          ∃ outcome, interpret (env.during tx) frame (.selfdestruct target host) journal =
            .returned outcome false journal ∧ outcome.result.isOk = false) ∧
    (∀ address receipt accounts, storedBlocklisted env.hashes world.accounts address = true →
      (∀ front, front <+: actions →
        blocklisted env.hashes (execute env block tx world front).journal address = true) →
      transact env block tx world actions = .executed receipt accounts →
      (accounts address).balance = (world.accounts address).balance ∨
        address = block.beneficiary ∧ (accounts address).balance = U256.saturatingAdd
          (world.accounts address).balance
          (Fin.ofNat _ (tx.effectiveGasPrice block * receipt.gasUsed))) := by
  refine ⟨fun address takesPart blocked => transact_blocked takesPart blocked actions, ?_, ?_, ?_, ?_,
    ?_⟩
  · intro accepted
    have admitted := admitted_of_refusal accepted
    obtain ⟨clean, accounted⟩ := (@watched_execute env block tx world actions active admitted).holds
    refine ⟨clean, accounted, ?_⟩
    intro address takesPart blocked
    have wanted : Wanted (env.during tx) 0 (opening env block tx world)
        (firstFrameInput tx (opening env block tx world)) := by
      have allowed := allowed_firstFrameInput admitted
      unfold firstFrameInput at allowed ⊢
      cases kind : tx.kind with
      | create =>
        rw [kind] at allowed
        exact allowed
      | call recipient list => exact fun _ => rfl
    obtain ⟨result, after, ends, refused⟩ :=
      @frameInit_blocked (env.during tx) _ address _ active _ wanted takesPart blocked
    refine ⟨result, after, ?_, refused⟩
    show (start (env.during tx) (buildSubcallRegistry (env.during tx))
      (firstFrameInput tx (opening env block tx world)) (opening env block tx world)).1 = _
    unfold start
    rw [ends]
  · intro frame action journal input loaded asked address takesPart blocked
    have acts := @acts_interpret (env.during tx) frame action journal
    rw [asked] at acts
    exact @frameInit_blocked (env.during tx) _ address _ active _ (wanted_of_issued acts.2.1) takesPart
      blocked
  · intro inputs precompile child left journal saved depth _ address takesPart blocked
    exact @checkedFrameInit_call_blocked (env.during tx) _ address _ active _ takesPart blocked
  · intro frame target host journal something address takesPart blocked
    exact @selfdestruct_blocked (env.during tx) _ active _ _ address _ something takesPart blocked
  · intro address receipt accounts before throughout executed
    obtain ⟨settlement, settles⟩ := executed_of_transact executed
    exact balance_of_apart settles (settles.admitted.not_sender before)
      (apart_execute active settles.admitted before throughout).holds

end Transaction

/-- The world of the payment, with its recipient blocked. -/
def barredWorld : World := soleHolder 0x11 1000000 (Function.update (fun _ => 0) 0x22 1)

theorem blocklist_enforced_payment :
    storedBlocklisted plainEnv.hashes barredWorld.accounts 0x22 = true ∧
    ∃ failure, transact plainEnv plainBlock (payment 0) barredWorld [] = .rejected failure ∧
      (validate plainBlock (payment 0) = none → failure = .str errBlockedAddress) :=
  ⟨by decide +kernel, (blocklist_enforced plainEnv plainBlock (payment 0) barredWorld [] rfl).1 0x22
    (Or.inr ⟨by decide, [], rfl⟩) (by decide +kernel)⟩

end ArcNode.Evm
