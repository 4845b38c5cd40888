/-
**The denylist and its owner.**

Denylisters list accounts, the owner names the denylisters, and the ownership is handed over in two
steps. Both mappings are written by `mark`, which emits one event where a flag changes and does
nothing where it does not. So a flag is what the last successful call that named it made it
(`flags_run`), and each change has one event (`reported_step`). The owner cannot be listed, but an
account that is listed can become the owner (**`owner_clear_iff`**, `listed_account_becomes_owner`).
Flags go back to an owner (`flag_from_owner`).

The events of `Ownable2StepUpgradeable` are left out.
-/

import ArcNode.Contracts.RegistryInvariants

namespace ArcNode.Contracts

open ArcNode.Lib ArcNode.Types

/-! ### The contract -/

/-- The mappings of `DenylistStorage`. -/
inductive Mapping where
  | denylisted
  | denylisters
  deriving DecidableEq

/-- `Denylisted`, `UnDenylisted`, `DenylisterAdded` and `DenylisterRemoved`: a flag and its new
value. -/
structure FlagEvent where
  flag : Mapping × Address
  status : Bool
  deriving DecidableEq

/-- The contract: its owner, its flags and the events so far. -/
structure Denylist where
  ownable : Ownable
  flags : Mapping × Address → Bool
  events : List FlagEvent

inductive DenylistError where
  | cannotDenylistOwner
  | callerIsNotDenylister
  | zeroAddress
  | ownable (failure : Revert)

namespace Denylist

/-- The contract after `initialize`. -/
def initialized (initialOwner : Address) : Except DenylistError Denylist :=
  if initialOwner = 0 then .error .zeroAddress else .ok ⟨⟨initialOwner, 0⟩, fun _ => false, []⟩

/-- Set one flag; a flag that already has the status emits nothing. -/
def mark (mapping : Mapping) (status : Bool) (contract : Denylist) (account : Address) : Denylist :=
  if contract.flags (mapping, account) = status then contract
  else { contract with
    flags := Function.update contract.flags (mapping, account) status
    events := contract.events ++ [⟨(mapping, account), status⟩] }

variable (contract : Denylist) (sender account : Address) (accounts : List Address)

/-- Run a function of the owner's part; its revert is passed on. -/
def onOwnable (program : ContractM Ownable Unit) : Except DenylistError Denylist :=
  match program.run contract.ownable with
  | .ok (_, ownable) => .ok { contract with ownable := ownable }
  | .error failure => .error (.ownable failure)

/-- The loop of `denylist`; the owner is read before it. -/
def denylistFrom (owner : Address) (contract : Denylist) : List Address → Except DenylistError Denylist
  | [] => .ok contract
  | account :: rest =>
    if account = owner then .error .cannotDenylistOwner
    else denylistFrom owner (contract.mark .denylisted true account) rest

/-- `denylist`: by a denylister, and never the owner. -/
def denylist : Except DenylistError Denylist :=
  if contract.flags (.denylisters, sender) then denylistFrom contract.ownable.owner contract accounts
  else .error .callerIsNotDenylister

def unDenylist : Except DenylistError Denylist :=
  if contract.flags (.denylisters, sender) then .ok (accounts.foldl (mark .denylisted false) contract)
  else .error .callerIsNotDenylister

def isDenylisted : Bool := contract.flags (.denylisted, account)

/-- What `addDenylister` and `removeDenylister` share. -/
def setDenylister (status : Bool) : Except DenylistError Denylist := do
  let contract ← contract.onOwnable (onlyOwner sender)
  if account = 0 then .error .zeroAddress else .ok (contract.mark .denylisters status account)

def addDenylister : Except DenylistError Denylist := contract.setDenylister sender account true

def removeDenylister : Except DenylistError Denylist := contract.setDenylister sender account false

end Denylist

/-- The calls that change the contract. -/
inductive DenylistCall where
  | denylist (accounts : List Address)
  | unDenylist (accounts : List Address)
  | addDenylister (account : Address)
  | removeDenylister (account : Address)
  | transferOwnership (newOwner : Address)
  | acceptOwnership
  | renounceOwnership

def Denylist.call (contract : Denylist) (sender : Address) : DenylistCall → Except DenylistError Denylist
  | .denylist accounts => contract.denylist sender accounts
  | .unDenylist accounts => contract.unDenylist sender accounts
  | .addDenylister account => contract.addDenylister sender account
  | .removeDenylister account => contract.removeDenylister sender account
  | .transferOwnership newOwner => contract.onOwnable (transferOwnership sender newOwner)
  | .acceptOwnership => contract.onOwnable (acceptOwnership sender)
  | .renounceOwnership => contract.onOwnable (renounceOwnership sender)

/-- A call by an account; a failed one reverts. The step shows whether it succeeded. -/
def denylistStep (contract : Denylist) (input : Address × DenylistCall) : Denylist × Bool :=
  match contract.call input.1 input.2 with
  | .ok after => (after, true)
  | .error _ => (contract, false)

/-! ### What a call does -/

namespace DenylistCall

def mapping : DenylistCall → Mapping
  | addDenylister _ | removeDenylister _ => .denylisters
  | _ => .denylisted

/-- What a call makes of the flags it names. -/
def status : DenylistCall → Bool
  | denylist _ | addDenylister _ => true
  | _ => false

/-- The accounts whose flags a call sets. -/
def named : DenylistCall → List Address
  | denylist accounts | unDenylist accounts => accounts
  | addDenylister account | removeDenylister account => [account]
  | _ => []

/-- The owner after a call. -/
def newOwner (sender owner : Address) : DenylistCall → Address
  | acceptOwnership => sender
  | renounceOwnership => 0
  | _ => owner

abbrev Names (call : DenylistCall) (flag : Mapping × Address) : Prop :=
  flag ∈ call.named.map (Prod.mk call.mapping)

end DenylistCall

section Calls

variable {contract after : Denylist} {sender : Address} {mapping : Mapping} {status : Bool}

theorem ownable_foldl_mark (accounts : List Address) :
    (accounts.foldl (Denylist.mark mapping status) contract).ownable = contract.ownable := by
  induction accounts generalizing contract with
  | nil => rfl
  | cons account rest ih =>
    rw [List.foldl_cons, ih]
    unfold Denylist.mark
    split_ifs <;> rfl

theorem denylistFrom_eq_ok {owner : Address} {accounts : List Address}
    (ok : Denylist.denylistFrom owner contract accounts = .ok after) :
    owner ∉ accounts ∧ after = accounts.foldl (Denylist.mark .denylisted true) contract := by
  induction accounts generalizing contract with
  | nil => exact ⟨List.not_mem_nil, (Except.ok.inj ok).symm⟩
  | cons account rest ih =>
    unfold Denylist.denylistFrom at ok
    split_ifs at ok with same
    obtain ⟨absent, marked⟩ := ih ok
    exact ⟨List.not_mem_cons_of_ne_of_not_mem (Ne.symm same) absent, marked⟩

theorem onOwnable_eq_ok {program : ContractM Ownable Unit} {post : Unit → Ownable → Prop}
    (ensures : Ensures program contract.ownable post) (ok : contract.onOwnable program = .ok after) :
    post () after.ownable ∧ after = { contract with ownable := after.ownable } := by
  unfold Denylist.onOwnable at ok
  cases ran : program.run contract.ownable with
  | error failure =>
    rw [ran] at ok
    cases ok
  | ok result =>
    rw [ran] at ok
    cases ok
    exact ⟨ensures () result.2 ran, rfl⟩

theorem setDenylister_eq_ok {account : Address}
    (ok : contract.setDenylister sender account status = .ok after) :
    after = contract.mark .denylisters status account := by
  obtain ⟨middle, first, last⟩ := bind_eq_ok.mp ok
  obtain ⟨same, changed⟩ := onOwnable_eq_ok
    (ensures_onlyOwner fun _ => rfl :
      Ensures (onlyOwner sender) contract.ownable fun _ final => final = contract.ownable) first
  rw [same] at changed
  split_ifs at last
  rw [← Except.ok.inj last, changed]

/-- **What a successful call does**: it marks the flags it names and sets the owner; the owner may
be taken from the list, but not put on it. -/
theorem call_eq_ok {call : DenylistCall} (ok : contract.call sender call = .ok after) :
    after = { call.named.foldl (Denylist.mark call.mapping call.status) contract with
        ownable := after.ownable } ∧
      after.ownable.owner = call.newOwner sender contract.ownable.owner ∧
      (call.Names (.denylisted, contract.ownable.owner) → call.status = false) := by
  have marked : ∀ accounts : List Address,
      after = accounts.foldl (Denylist.mark call.mapping call.status) contract →
      after = { accounts.foldl (Denylist.mark call.mapping call.status) contract with
        ownable := after.ownable } ∧ after.ownable.owner = contract.ownable.owner := by
    rintro accounts rfl
    exact ⟨rfl, congrArg Ownable.owner (ownable_foldl_mark accounts)⟩
  cases call with
  | denylist accounts =>
    unfold Denylist.call Denylist.denylist at ok
    split_ifs at ok
    obtain ⟨absent, made⟩ := denylistFrom_eq_ok ok
    refine ⟨(marked _ made).1, (marked _ made).2, fun names => ?_⟩
    obtain ⟨account, member, same⟩ := List.mem_map.mp names
    exact absurd ((Prod.mk.inj same).2 ▸ member) absent
  | unDenylist accounts =>
    unfold Denylist.call Denylist.unDenylist at ok
    split_ifs at ok
    have made := marked _ (Except.ok.inj ok).symm
    exact ⟨made.1, made.2, fun _ => rfl⟩
  | addDenylister account =>
    have made := marked [account] (setDenylister_eq_ok ok)
    exact ⟨made.1, made.2, fun names => by cases List.mem_singleton.mp names⟩
  | removeDenylister account =>
    have made := marked [account] (setDenylister_eq_ok ok)
    exact ⟨made.1, made.2, fun _ => rfl⟩
  | transferOwnership newOwner =>
    obtain ⟨same, made⟩ := onOwnable_eq_ok
      (ensures_bind (ensures_onlyOwner fun _ => ensures_modify rfl) :
        Ensures (transferOwnership sender newOwner) _ fun _ final =>
          final.owner = contract.ownable.owner) ok
    exact ⟨made, same, fun _ => rfl⟩
  | acceptOwnership =>
    obtain ⟨same, made⟩ := onOwnable_eq_ok
      (ensures_bind (ensures_get (ensures_bind (ensures_requires fun _ => ensures_set rfl))) :
        Ensures (acceptOwnership sender) _ fun _ final => final.owner = sender) ok
    exact ⟨made, same, fun _ => rfl⟩
  | renounceOwnership =>
    obtain ⟨same, made⟩ := onOwnable_eq_ok
      (ensures_bind (ensures_onlyOwner fun _ => ensures_set rfl) :
        Ensures (renounceOwnership sender) _ fun _ final => final.owner = 0) ok
    exact ⟨made, same, fun _ => rfl⟩

/-! ### Flags and events -/

theorem flags_mark (account : Address) (flag : Mapping × Address) :
    (contract.mark mapping status account).flags flag =
      if flag = (mapping, account) then status else contract.flags flag := by
  unfold Denylist.mark
  split_ifs with same here here
  · rw [here]
    exact same
  · rfl
  · rw [here]
    exact Function.update_self ..
  · exact Function.update_of_ne here ..

theorem flags_foldl_mark (accounts : List Address) (flag : Mapping × Address) :
    (accounts.foldl (Denylist.mark mapping status) contract).flags flag =
      if flag ∈ accounts.map (Prod.mk mapping) then status else contract.flags flag := by
  induction accounts generalizing contract with
  | nil => simp
  | cons account rest ih =>
    rw [List.foldl_cons, ih, flags_mark]
    rw [List.map_cons]
    by_cases there : flag ∈ rest.map (Prod.mk mapping)
    · rw [if_pos there, if_pos (List.mem_cons_of_mem _ there)]
    · rw [if_neg there]
      refine if_congr ?_ rfl rfl
      rw [List.mem_cons]
      tauto

/-- **Each change has one event**: the new events are those of the flags that changed, once each. -/
def Reported (before after : Denylist) : Prop :=
  ∃ fresh, after.events = before.events ++ fresh ∧ ∀ event, fresh.count event =
    if before.flags event.flag ≠ event.status ∧ after.flags event.flag = event.status then 1 else 0

theorem reported_foldl_mark (accounts : List Address) :
    Reported contract (accounts.foldl (Denylist.mark mapping status) contract) := by
  induction accounts using List.reverseRecOn with
  | nil => exact ⟨[], (List.append_nil _).symm, fun event => by simp⟩
  | append_singleton front account ih =>
    obtain ⟨fresh, events, counts⟩ := ih
    have flags := @flags_foldl_mark contract mapping status front
    rw [List.foldl_append, List.foldl_cons, List.foldl_nil]
    generalize front.foldl (Denylist.mark mapping status) contract = middle at events counts flags
    unfold Denylist.mark
    split_ifs with same
    · exact ⟨fresh, events, counts⟩
    · -- the flag was not set before, so this is its first event
      have unset : contract.flags (mapping, account) = middle.flags (mapping, account) := by
        rw [flags] at same ⊢
        split_ifs at same ⊢
        · exact absurd rfl same
        · rfl
      refine ⟨fresh ++ [⟨(mapping, account), status⟩], by simp [events], fun event => ?_⟩
      obtain ⟨flag, value⟩ := event
      rw [List.count_append, counts, List.count_singleton]
      by_cases here : flag = (mapping, account)
      · subst here
        cases value <;> cases status <;> simp_all
      · simp [Function.update_of_ne here, Ne.symm here]

end Calls

variable {contract start : Denylist}

theorem reported_step (contract : Denylist) (input : Address × DenylistCall) :
    Reported contract (denylistStep contract input).1 := by
  unfold denylistStep
  cases ok : contract.call input.1 input.2 with
  | error failure => exact @reported_foldl_mark contract .denylisted false []
  | ok after =>
    dsimp only
    rw [(call_eq_ok ok).1]
    exact reported_foldl_mark input.2.named

/-- What the last successful call that named a flag made of it. -/
def lastStatus (flag : Mapping × Address) : Denylist → List (Address × DenylistCall) → Option Bool
  | _, [] => none
  | contract, input :: rest => lastStatus flag (denylistStep contract input).1 rest <|>
    if (denylistStep contract input).2 = true ∧ input.2.Names flag then some input.2.status else none

theorem flags_step (contract : Denylist) (input : Address × DenylistCall) (flag : Mapping × Address) :
    (denylistStep contract input).1.flags flag =
      if (denylistStep contract input).2 = true ∧ input.2.Names flag then input.2.status
      else contract.flags flag := by
  unfold denylistStep
  cases ok : contract.call input.1 input.2 with
  | error failure => simp
  | ok after =>
    dsimp only
    rw [(call_eq_ok ok).1, flags_foldl_mark]
    simp

theorem flags_run (flag : Mapping × Address) (inputs : List (Address × DenylistCall)) :
    (run denylistStep contract inputs).flags flag =
      (lastStatus flag contract inputs).getD (contract.flags flag) := by
  induction inputs generalizing contract with
  | nil => rfl
  | cons input rest ih =>
    rw [run, ih, flags_step, lastStatus]
    cases lastStatus flag (denylistStep contract input).1 rest with
    | some status => rfl
    | none => split_ifs <;> rfl

/-! ### The owner -/

/-- The owner is not on the list. -/
def Denylist.OwnerClear (contract : Denylist) : Prop :=
  contract.isDenylisted contract.ownable.owner = false

/-- A call that hands the ownership over hands it to an account that is not on the list: the caller
that accepts it, or address 0. -/
def Welcome (contract : Denylist) (input : Address × DenylistCall) : Prop :=
  match input.2 with
  | .acceptOwnership => (denylistStep contract input).2 = true → contract.isDenylisted input.1 = false
  | .renounceOwnership => (denylistStep contract input).2 = true → contract.isDenylisted 0 = false
  | _ => True

theorem ownerClear_step (clear : contract.OwnerClear) (input : Address × DenylistCall) :
    (denylistStep contract input).1.OwnerClear ↔ Welcome contract input := by
  obtain ⟨sender, call⟩ := input
  unfold Denylist.OwnerClear Denylist.isDenylisted at clear ⊢
  unfold Welcome Denylist.isDenylisted
  rw [flags_step]
  unfold denylistStep
  cases ok : contract.call sender call with
  | error failure => cases call <;> simpa using clear
  | ok after =>
    obtain ⟨-, owner, listed⟩ := call_eq_ok ok
    dsimp only
    rw [owner]
    cases call with
    | acceptOwnership | renounceOwnership =>
      simp [DenylistCall.Names, DenylistCall.named, DenylistCall.newOwner]
    | _ =>
      refine iff_of_true ?_ trivial
      split_ifs with names
      · exact listed names.2
      · exact clear

theorem ownerClear_run (clear : start.OwnerClear) (inputs : List (Address × DenylistCall)) :
    Along denylistStep (fun contract input => (denylistStep contract input).1.OwnerClear) start inputs ↔
      Along denylistStep Welcome start inputs := by
  induction inputs generalizing start with
  | nil => exact Iff.rfl
  | cons input rest ih =>
    exact (and_congr_right fun here => ih here).trans
      (and_congr_left fun _ => ownerClear_step clear input)

/-- **The owner stays off the list exactly as long as no account on it becomes the owner.** An
account is on the list exactly when the last successful call that named it put it there, and each
change has one event. -/
theorem owner_clear_iff {initialOwner : Address}
    (deployed : Denylist.initialized initialOwner = .ok start)
    (inputs : List (Address × DenylistCall)) :
    start.OwnerClear ∧
      (Along denylistStep (fun contract input => (denylistStep contract input).1.OwnerClear) start
          inputs ↔
        Along denylistStep Welcome start inputs) ∧
      (∀ account, (run denylistStep start inputs).isDenylisted account = true ↔
        lastStatus (.denylisted, account) start inputs = some true) ∧
      ∀ contract input, Reported contract (denylistStep contract input).1 := by
  unfold Denylist.initialized at deployed
  split_ifs at deployed
  cases deployed
  have clear : (⟨⟨initialOwner, 0⟩, fun _ => false, []⟩ : Denylist).OwnerClear := rfl
  refine ⟨clear, ownerClear_run clear inputs, fun account => ?_, reported_step⟩
  unfold Denylist.isDenylisted
  rw [flags_run]
  cases lastStatus (.denylisted, account) _ inputs <;> simp

/-- A contract that account 1 owns. -/
def freshDenylist : Denylist := ⟨⟨1, 0⟩, fun _ => false, []⟩

/-- The owner names a denylister and hands over to account 3, which is listed before it accepts. -/
def handover : List (Address × DenylistCall) :=
  [(1, .addDenylister 2), (1, .transferOwnership 3), (2, .denylist [3]), (3, .acceptOwnership)]

theorem owner_clear_iff_handover : freshDenylist.OwnerClear ∧
      (Along denylistStep (fun contract input => (denylistStep contract input).1.OwnerClear)
        freshDenylist handover ↔ Along denylistStep Welcome freshDenylist handover) ∧
      (∀ account, (run denylistStep freshDenylist handover).isDenylisted account = true ↔
        lastStatus (.denylisted, account) freshDenylist handover = some true) ∧
      ∀ contract input, Reported contract (denylistStep contract input).1 :=
  owner_clear_iff (rfl : Denylist.initialized 1 = .ok freshDenylist) handover

/-- **An account on the list becomes the owner.** -/
theorem listed_account_becomes_owner : Denylist.initialized 1 = .ok freshDenylist ∧
      (run denylistStep freshDenylist handover).ownable.owner = 3 ∧
      (run denylistStep freshDenylist handover).isDenylisted 3 = true :=
  ⟨rfl, by decide +kernel⟩

/-! ### Authority -/

/-- **Every flag goes back to an owner**, who named a denylister earlier in the run. -/
theorem flag_from_owner (clear : ∀ flag, contract.flags flag = false)
    {inputs : List (Address × DenylistCall)} {flag : Mapping × Address}
    (set : (run denylistStep contract inputs).flags flag = true) :
    ∃ front account back, account ≠ 0 ∧ inputs = front ++
      ((run denylistStep contract front).ownable.owner, .addDenylister account) :: back := by
  induction inputs generalizing contract with
  | nil => exact absurd set (by simp [run, clear])
  | cons input rest ih =>
    obtain ⟨sender, call⟩ := input
    by_cases first : ∃ account ≠ 0, call = .addDenylister account ∧ contract.ownable.owner = sender
    · obtain ⟨account, nonzero, rfl, rfl⟩ := first
      exact ⟨[], account, rest, nonzero, rfl⟩
    · have still : ∀ flag, (denylistStep contract (sender, call)).1.flags flag = false := by
        intro flag
        rw [flags_step, clear, denylistStep]
        cases call with
        | denylist accounts => simp [Denylist.call, Denylist.denylist, clear]
        | addDenylister account =>
          cases ok : contract.call sender (.addDenylister account) with
          | error failure => rfl
          | ok after =>
            obtain ⟨middle, owned, last⟩ := bind_eq_ok.mp ok
            split_ifs at last with zero
            exact absurd ⟨account, zero, rfl, (onOwnable_eq_ok (ensures_onlyOwner id :
              Ensures _ _ fun _ _ => contract.ownable.owner = sender) owned).1⟩ first
        | _ => exact ite_self _
      obtain ⟨front, account, back, nonzero, split⟩ := ih still set
      exact ⟨(sender, call) :: front, account, back, nonzero, congrArg _ split⟩

theorem flag_from_owner_handover : ∃ front account back, account ≠ 0 ∧ handover = front ++
      ((run denylistStep freshDenylist front).ownable.owner, .addDenylister account) :: back :=
  flag_from_owner (fun _ => rfl)
    (by decide +kernel : (run denylistStep freshDenylist handover).flags (.denylisted, 3) = true)

end ArcNode.Contracts
