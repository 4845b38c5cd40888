/-
**The invariants of the validator registry.**

`Change` lists what a call can do to the storage of the registry: nothing, a registration, an
activation, a removal, or a new voting power (**`change_callStep`**, for every call to either
contract). The four storage structures agree (`WellFormed`) in every state of every run, ids are
handed out in increasing order, an id that was given up stays unknown, and once an active validator
has voting power there is always one (**`registry_invariants`**).
-/

import Mathlib
import ArcNode.Lib.Machine
import ArcNode.Contracts.ValidatorRegistry

namespace ArcNode.Contracts

open ArcNode.Lib ArcNode.Types ArcNode.Evm

/-! ### What a call can do -/

/-- What one call does to the storage, and the id that it shows. -/
inductive Change (keccak : List Byte → U256) (old : RegistryStorage) :
    Option U256 → RegistryStorage → Prop
  | nothing : Change keccak old none old
  | registered (publicKey : List Byte) (votingPower : U64)
      (fresh : old.registeredPublicKeys (keccak publicKey) = false)
      (fits : old.nextRegistrationId.val + 1 < 2 ^ 256) :
      Change keccak old (some old.nextRegistrationId)
        { old with
          nextRegistrationId := old.nextRegistrationId + 1
          validatorsByRegistrationId := Function.update old.validatorsByRegistrationId
            old.nextRegistrationId ⟨.registered, publicKey, votingPower⟩
          registeredPublicKeys :=
            Function.update old.registeredPublicKeys (keccak publicKey) true }
  | activated (registrationId : U256)
      (waits : (old.validatorsByRegistrationId registrationId).status = .registered) :
      Change keccak old none
        { old with
          validatorsByRegistrationId := Function.update old.validatorsByRegistrationId registrationId
            { old.validatorsByRegistrationId registrationId with status := .active }
          activeValidatorRegistrations := old.activeValidatorRegistrations.add registrationId }
  | removed (registrationId : U256)
      (known : (old.validatorsByRegistrationId registrationId).status ≠ .unknown)
      (spares : (old.validatorsByRegistrationId registrationId).status = .active ∧
        0 < (old.validatorsByRegistrationId registrationId).votingPower →
          1 < old.countActiveValidatorsWithPositiveVotingPower) :
      Change keccak old none
        { old with
          activeValidatorRegistrations := old.activeValidatorRegistrations.remove registrationId
          validatorsByRegistrationId :=
            Function.update old.validatorsByRegistrationId registrationId .deleted
          registeredPublicKeys := Function.update old.registeredPublicKeys
            (keccak (old.validatorsByRegistrationId registrationId).publicKey) false }
  | weighed (registrationId : U256) (newVotingPower : U64)
      (known : (old.validatorsByRegistrationId registrationId).status ≠ .unknown)
      (spares : (old.validatorsByRegistrationId registrationId).status = .active ∧
        0 < (old.validatorsByRegistrationId registrationId).votingPower ∧ newVotingPower = 0 →
          1 < old.countActiveValidatorsWithPositiveVotingPower) :
      Change keccak old none
        { old with
          validatorsByRegistrationId := Function.update old.validatorsByRegistrationId registrationId
            { old.validatorsByRegistrationId registrationId with votingPower := newVotingPower } }

variable (registrationId : U256)

section Calls

variable {keccak : List Byte → U256}

theorem ensures_requires {σ : Type} {condition : Prop} [Decidable condition] {failure : Revert}
    {state : σ} {post : Unit → σ → Prop} (holds : condition → post () state) :
    Ensures (requires condition failure) state post :=
  ensures_require holds

theorem ensures_onlyOwner {sender : Address} {state : Ownable} {post : Unit → Ownable → Prop}
    (holds : state.owner = sender → post () state) : Ensures (onlyOwner sender) state post :=
  ensures_bind (ensures_get (ensures_requires holds))

section Registry

variable {registry : ValidatorRegistry} {sender : Address}

theorem ensures_asOwner {α : Type} {program : ContractM RegistryStorage α}
    {post : α → ValidatorRegistry → Prop}
    (inner : Ensures program registry.storage fun value storage =>
      post value { registry with storage := storage }) :
    Ensures (ValidatorRegistry.asOwner sender program) registry post :=
  ensures_bind (ensures_focus (ensures_onlyOwner fun _ => ensures_focus inner))

theorem ensures_onOwnable {program : ContractM Ownable Unit} {post : Unit → ValidatorRegistry → Prop}
    (holds : ∀ ownable, post () { registry with ownable := ownable }) :
    Ensures (ValidatorRegistry.onOwnable program) registry post :=
  ensures_focus fun _ final _ => holds final

theorem change_registerValidator (publicKey : List Byte) (votingPower : U64)
    (storage : RegistryStorage) :
    Ensures (registerValidator keccak publicKey votingPower) storage fun registrationId after =>
      Change keccak storage (some registrationId) after := by
  unfold registerValidator
  refine ensures_bind (ensures_requires fun _ => ensures_bind (ensures_get ?_))
  refine ensures_bind (ensures_requires fun fresh => ensures_bind (ensures_requires fun fits => ?_))
  exact ensures_bind (ensures_set (ensures_pure (.registered publicKey votingPower fresh fits)))

theorem change_activateValidator (storage : RegistryStorage) :
    Ensures (activateValidator registrationId) storage fun _ after =>
      Change keccak storage none after := by
  unfold activateValidator
  refine ensures_bind (ensures_get (ensures_bind (ensures_requires fun _ => ?_)))
  exact ensures_bind (ensures_requires fun waits => ensures_set (.activated registrationId waits))

theorem change_removeValidator (storage : RegistryStorage) :
    Ensures (removeValidator keccak registrationId) storage fun _ after =>
      Change keccak storage none after := by
  unfold removeValidator
  refine ensures_bind (ensures_get (ensures_bind (ensures_requires fun known => ?_)))
  exact ensures_bind (ensures_requires fun spares =>
    ensures_set (.removed registrationId known spares))

theorem change_updateValidatorVotingPower (newVotingPower : U64) (storage : RegistryStorage) :
    Ensures (updateValidatorVotingPower registrationId newVotingPower) storage fun _ after =>
      Change keccak storage none after := by
  unfold updateValidatorVotingPower
  refine ensures_bind (ensures_get (ensures_bind (ensures_requires fun known => ?_)))
  refine ensures_bind (ensures_requires fun _ => ensures_bind (ensures_requires fun spares => ?_))
  exact ensures_set (.weighed registrationId newVotingPower known spares)

theorem change_registryCall (request : RegistryCall) (registry : ValidatorRegistry) :
    Ensures (ValidatorRegistry.call keccak sender request) registry fun registrationId after =>
      Change keccak registry.storage registrationId after.storage := by
  cases request with
  | registerValidator publicKey votingPower =>
    refine ensures_bind (ensures_asOwner ?_)
    exact (change_registerValidator _ _ _).mono fun _ _ change => ensures_pure change
  | activateValidator registrationId =>
    refine ensures_bind (ensures_asOwner ?_)
    exact (change_activateValidator _ _).mono fun _ _ change => ensures_pure change
  | removeValidator registrationId =>
    refine ensures_bind (ensures_asOwner ?_)
    exact (change_removeValidator _ _).mono fun _ _ change => ensures_pure change
  | updateValidatorVotingPower registrationId newVotingPower =>
    refine ensures_bind (ensures_asOwner ?_)
    exact (change_updateValidatorVotingPower _ _ _).mono fun _ _ change => ensures_pure change
  | transferOwnership newOwner =>
    exact ensures_bind (ensures_onOwnable fun _ => ensures_pure .nothing)
  | acceptOwnership => exact ensures_bind (ensures_onOwnable fun _ => ensures_pure .nothing)
  | renounceOwnership => exact ensures_bind (ensures_onOwnable fun _ => ensures_pure .nothing)

end Registry

section Manager

variable {contracts : Deployment} {sender : Address}

theorem ensures_onManager {program : ContractM ValidatorManager Unit}
    {post : Unit → Deployment → Prop}
    (holds : ∀ manager, post () { contracts with manager := manager }) :
    Ensures (Deployment.onManager program) contracts post :=
  ensures_focus fun _ final _ => holds final

theorem change_ownFunction (program : ContractM ValidatorManager Unit) (contracts : Deployment) :
    Ensures (Deployment.ownFunction program) contracts fun registrationId after =>
      Change keccak contracts.registry.storage registrationId after.registry.storage :=
  ensures_bind (ensures_onManager fun _ => ensures_pure .nothing)

theorem change_delegate (request : RegistryCall) (contracts : Deployment) :
    Ensures (Deployment.delegate keccak request) contracts fun registrationId after =>
      Change keccak contracts.registry.storage registrationId after.registry.storage :=
  ensures_bind (ensures_get (ensures_focus (change_registryCall request contracts.registry)))

theorem ensures_asController {post : Unit → Deployment → Prop} (holds : post () contracts) :
    Ensures (Deployment.asController sender) contracts post := by
  refine ensures_bind (ensures_focus (ensures_bind (ensures_get (ensures_requires fun _ => ?_))))
  exact ensures_focus (ensures_bind (ensures_get (ensures_requires fun _ => holds)))

theorem change_managerCall (request : ManagerCall) (contracts : Deployment) :
    Ensures (Deployment.managerCall keccak sender request) contracts fun registrationId after =>
      Change keccak contracts.registry.storage registrationId after.registry.storage := by
  cases request with
  | registerValidator publicKey =>
    refine ensures_bind (ensures_onManager fun _ => ensures_bind (ensures_onManager fun _ => ?_))
    exact change_delegate _ _
  | activateValidator | removeValidator =>
    refine ensures_bind (ensures_asController (ensures_bind (ensures_get ?_)))
    exact change_delegate _ _
  | updateValidatorVotingPower newVotingPower =>
    refine ensures_bind (ensures_asController (ensures_bind (ensures_get ?_)))
    exact ensures_bind (ensures_requires fun _ => change_delegate _ _)
  | transferRegistryOwner newOwner =>
    refine ensures_bind (ensures_onManager fun _ => ensures_bind (ensures_requires fun _ => ?_))
    exact change_delegate _ _
  | acceptRegistryOwnership =>
    exact ensures_bind (ensures_onManager fun _ => change_delegate _ _)
  | configureController controller registrationId votingPowerLimit => exact change_ownFunction _ _
  | removeController controller => exact change_ownFunction _ _
  | updateVotingPowerLimit controller newVotingPowerLimit => exact change_ownFunction _ _
  | addValidatorRegisterer registerer => exact change_ownFunction _ _
  | removeValidatorRegisterer registerer => exact change_ownFunction _ _
  | updatePauser newPauser => exact change_ownFunction _ _
  | pause => exact change_ownFunction _ _
  | unpause => exact change_ownFunction _ _
  | transferOwnership newOwner | acceptOwnership | renounceOwnership => exact change_ownFunction _ _

end Manager

theorem change_callStep (contracts : Deployment) (call : Call) :
    Change keccak contracts.registry.storage (callStep keccak contracts call).2
      (callStep keccak contracts call).1.registry.storage := by
  have ensures : Ensures (call.program keccak) contracts fun registrationId after =>
      Change keccak contracts.registry.storage registrationId after.registry.storage := by
    cases call with
    | registry sender request =>
      have focused : Ensures (Deployment.onRegistry (ValidatorRegistry.call keccak sender request))
          contracts fun registrationId after =>
            Change keccak contracts.registry.storage registrationId after.registry.storage :=
        ensures_focus (change_registryCall request contracts.registry)
      exact focused
    | manager sender request => exact change_managerCall request contracts
  unfold callStep
  cases ran : (call.program keccak).run contracts with
  | error failure => exact .nothing
  | ok result => exact ensures _ _ ran

end Calls

/-! ### The four structures agree -/

section Keyed

variable {ι κ : Type} [DecidableEq ι] [DecidableEq κ]

/-- `used` marks the keys of the entries, and no two entries share one. -/
structure Keyed (key : ι → Option κ) (used : κ → Bool) : Prop where
  used_iff : ∀ value, used value = true ↔ ∃ entry, key entry = some value
  distinct : ∀ first second value, key first = some value → key second = some value → first = second

variable {key : ι → Option κ} {used : κ → Bool} {entry : ι} {value : κ}

theorem Keyed.insert (keyed : Keyed key used) (spare : key entry = none)
    (fresh : used value = false) :
    Keyed (Function.update key entry (some value)) (Function.update used value true) := by
  have other : ∀ holder, key holder ≠ some value := by
    intro holder held
    have taken := (keyed.used_iff value).mpr ⟨holder, held⟩
    rw [fresh] at taken
    cases taken
  constructor
  · intro asked
    by_cases same : asked = value
    · rw [same, Function.update_self]
      exact iff_of_true rfl ⟨entry, Function.update_self _ _ _⟩
    · rw [Function.update_of_ne same, keyed.used_iff]
      constructor
      · rintro ⟨holder, held⟩
        have apart : holder ≠ entry := fun here => by
          rw [here, spare] at held
          cases held
        exact ⟨holder, by rw [Function.update_of_ne apart, held]⟩
      · rintro ⟨holder, held⟩
        by_cases here : holder = entry
        · rw [here, Function.update_self, Option.some.injEq] at held
          exact (same held.symm).elim
        · exact ⟨holder, by rwa [Function.update_of_ne here] at held⟩
  · intro first second asked held held'
    by_cases here : first = entry
    · by_cases there : second = entry
      · rw [here, there]
      · rw [here, Function.update_self, Option.some.injEq] at held
        rw [Function.update_of_ne there, ← held] at held'
        exact (other second held').elim
    · rw [Function.update_of_ne here] at held
      by_cases there : second = entry
      · rw [there, Function.update_self, Option.some.injEq] at held'
        exact (other first (held'.symm ▸ held)).elim
      · rw [Function.update_of_ne there] at held'
        exact keyed.distinct first second asked held held'

theorem Keyed.erase (keyed : Keyed key used) (held : key entry = some value) :
    Keyed (Function.update key entry none) (Function.update used value false) := by
  have kept : ∀ holder asked, Function.update key entry none holder = some asked →
      holder ≠ entry ∧ key holder = some asked := by
    intro holder asked holds
    have apart : holder ≠ entry := by
      rintro rfl
      rw [Function.update_self] at holds
      cases holds
    exact ⟨apart, by rwa [Function.update_of_ne apart] at holds⟩
  constructor
  · intro asked
    by_cases same : asked = value
    · rw [same, Function.update_self]
      refine iff_of_false Bool.false_ne_true ?_
      rintro ⟨holder, holds⟩
      obtain ⟨apart, had⟩ := kept holder value holds
      exact apart (keyed.distinct holder entry value had held)
    · rw [Function.update_of_ne same, keyed.used_iff]
      constructor
      · rintro ⟨holder, had⟩
        have apart : holder ≠ entry := by
          rintro rfl
          exact same (Option.some.inj (had.symm.trans held))
        exact ⟨holder, by rw [Function.update_of_ne apart, had]⟩
      · rintro ⟨holder, holds⟩
        exact ⟨holder, (kept holder asked holds).2⟩
  · intro first second asked holds holds'
    exact keyed.distinct first second asked (kept first asked holds).2 (kept second asked holds').2

end Keyed

/-- The hash of the key of a validator, if it is known. -/
def Validator.keyHash (keccak : List Byte → U256) (validator : Validator) : Option U256 :=
  if validator.status = .unknown then none else some (keccak validator.publicKey)

namespace RegistryStorage

variable (storage : RegistryStorage)

def Known : Prop :=
  (storage.validatorsByRegistrationId registrationId).status ≠ .unknown

def Powered : Prop :=
  (storage.validatorsByRegistrationId registrationId).status = .active ∧
    0 < (storage.validatorsByRegistrationId registrationId).votingPower

def keyHash (keccak : List Byte → U256) : U256 → Option U256 :=
  Validator.keyHash keccak ∘ storage.validatorsByRegistrationId

end RegistryStorage

/-- The active set, the keys and the next id say what the validators say. -/
structure WellFormed (keccak : List Byte → U256) (storage : RegistryStorage) : Prop where
  active : ∀ registrationId, registrationId ∈ storage.activeValidatorRegistrations ↔
    (storage.validatorsByRegistrationId registrationId).status = .active
  keyed : Keyed (storage.keyHash keccak) storage.registeredPublicKeys
  below : ∀ registrationId, storage.Known registrationId →
    registrationId < storage.nextRegistrationId

def emptyStorage (firstId : U256) : RegistryStorage :=
  ⟨fun _ => .deleted, .empty, fun _ => false, firstId⟩

theorem wellFormed_empty (keccak : List Byte → U256) (firstId : U256) :
    WellFormed keccak (emptyStorage firstId) where
  active _ := iff_of_false List.not_mem_nil (fun wrong => nomatch wrong)
  keyed := by
    constructor
    · exact fun hash => iff_of_false Bool.false_ne_true (fun ⟨_, held⟩ => nomatch held)
    · exact fun _ _ _ held => nomatch held
  below _ known := (known rfl).elim

section Invariants

variable {keccak : List Byte → U256} {old new : RegistryStorage} {shows : Option U256}

theorem RegistryStorage.keyHash_of_known {registrationId : U256} (known : old.Known registrationId) :
    old.keyHash keccak registrationId =
      some (keccak (old.validatorsByRegistrationId registrationId).publicKey) :=
  if_neg known

theorem RegistryStorage.keyHash_of_unknown {registrationId : U256}
    (unknown : ¬ old.Known registrationId) : old.keyHash keccak registrationId = none :=
  if_pos (not_not.mp unknown)

theorem WellFormed.marked (sound : WellFormed keccak old) (hash : U256) :
    old.registeredPublicKeys hash = true ↔ ∃ registrationId, old.Known registrationId ∧
      keccak (old.validatorsByRegistrationId registrationId).publicKey = hash := by
  rw [sound.keyed.used_iff]
  refine exists_congr fun registrationId => ⟨fun held => ?_, fun held => ?_⟩
  · by_cases known : old.Known registrationId
    · rw [RegistryStorage.keyHash_of_known known, Option.some.injEq] at held
      exact ⟨known, held⟩
    · rw [RegistryStorage.keyHash_of_unknown known] at held
      cases held
  · rw [RegistryStorage.keyHash_of_known held.1, held.2]

theorem WellFormed.distinct (sound : WellFormed keccak old) {first second : U256}
    (known : old.Known first) (known' : old.Known second)
    (same : (old.validatorsByRegistrationId first).publicKey =
      (old.validatorsByRegistrationId second).publicKey) : first = second := by
  refine sound.keyed.distinct first second _ (RegistryStorage.keyHash_of_known known) ?_
  rw [same]
  exact RegistryStorage.keyHash_of_known known'

theorem WellFormed.exists_other_powered (sound : WellFormed keccak old) (registrationId : U256)
    (several : 1 < old.countActiveValidatorsWithPositiveVotingPower) :
    ∃ other, other ≠ registrationId ∧ old.Powered other := by
  unfold RegistryStorage.countActiveValidatorsWithPositiveVotingPower at several
  rw [List.countP_eq_length_filter,
    ← List.toFinset_card_of_nodup (old.activeValidatorRegistrations.nodup.filter _)] at several
  obtain ⟨other, member, apart⟩ := Finset.exists_mem_ne several registrationId
  rw [List.mem_toFinset, List.mem_filter, decide_eq_true_eq] at member
  exact ⟨other, apart, (sound.active other).mp member.1, member.2⟩

theorem next_val (fits : old.nextRegistrationId.val + 1 < 2 ^ 256) :
    (old.nextRegistrationId + 1).val = old.nextRegistrationId.val + 1 :=
  U256.val_add_of_lt fits

theorem lt_next (fits : old.nextRegistrationId.val + 1 < 2 ^ 256) :
    old.nextRegistrationId < old.nextRegistrationId + 1 := by
  rw [Fin.lt_def, next_val fits]
  exact Nat.lt_succ_self _

theorem Change.next_le (change : Change keccak old shows new) :
    old.nextRegistrationId ≤ new.nextRegistrationId := by
  cases change with
  | registered publicKey votingPower fresh fits => exact (lt_next fits).le
  | nothing => exact le_rfl
  | activated registrationId waits => exact le_rfl
  | removed registrationId known spares | weighed registrationId newVotingPower known spares =>
    exact le_rfl

/-- A registration shows the id that was next, and a greater one is next. -/
theorem Change.shown {registrationId : U256}
    (change : Change keccak old (some registrationId) new) :
    registrationId = old.nextRegistrationId ∧ registrationId < new.nextRegistrationId := by
  cases change with
  | registered publicKey votingPower fresh fits => exact ⟨rfl, lt_next fits⟩

/-- **An id below the next one that is not in use is never used again.** -/
theorem Change.unknown (change : Change keccak old shows new) {registrationId : U256}
    (given : registrationId < old.nextRegistrationId) (unknown : ¬ old.Known registrationId) :
    ¬ new.Known registrationId := by
  have kept : ∀ touched validator, registrationId ≠ touched →
      ¬ (Function.update old.validatorsByRegistrationId touched validator registrationId).status ≠
        .unknown := by
    intro touched validator apart
    rw [Function.update_of_ne apart]
    exact unknown
  have apart : ∀ touched, old.Known touched → registrationId ≠ touched :=
    fun touched known same => unknown (same ▸ known)
  cases change with
  | nothing => exact unknown
  | registered publicKey votingPower fresh fits => exact kept _ _ given.ne
  | activated touched waits =>
    exact kept touched _ (apart touched (by simp [RegistryStorage.Known, waits]))
  | removed touched known spares => exact kept touched _ (apart touched known)
  | weighed touched newVotingPower known spares => exact kept touched _ (apart touched known)

theorem Change.wellFormed (change : Change keccak old shows new) (sound : WellFormed keccak old) :
    WellFormed keccak new := by
  -- what an update of one validator does to each of the three clauses
  have active : ∀ {touched : U256} {validator : Validator} {ids : EnumerableSet U256},
      (∀ other, other ≠ touched → (other ∈ ids ↔ other ∈ old.activeValidatorRegistrations)) →
      (touched ∈ ids ↔ validator.status = .active) → ∀ registrationId, registrationId ∈ ids ↔
        (Function.update old.validatorsByRegistrationId touched validator registrationId).status =
          .active := by
    intro touched validator ids others here registrationId
    by_cases mine : registrationId = touched
    · rw [mine, Function.update_self]
      exact here
    · rw [Function.update_of_ne mine, others _ mine]
      exact sound.active registrationId
  have hashes : ∀ touched validator, Validator.keyHash keccak ∘
      Function.update old.validatorsByRegistrationId touched validator =
      Function.update (old.keyHash keccak) touched (Validator.keyHash keccak validator) :=
    fun touched validator => Function.comp_update _ _ _ _
  have rekeyed : ∀ touched validator, Validator.keyHash keccak validator =
      old.keyHash keccak touched → Keyed (Validator.keyHash keccak ∘
        Function.update old.validatorsByRegistrationId touched validator)
          old.registeredPublicKeys := by
    intro touched validator same
    rw [hashes, same, Function.update_eq_self]
    exact sound.keyed
  have below : ∀ {touched : U256} {validator : Validator} {next : U256}, touched < next →
      old.nextRegistrationId ≤ next → ∀ registrationId,
      (Function.update old.validatorsByRegistrationId touched validator registrationId).status ≠
        .unknown → registrationId < next := by
    intro touched validator next small more registrationId known
    by_cases mine : registrationId = touched
    · exact mine ▸ small
    · rw [Function.update_of_ne mine] at known
      exact (sound.below registrationId known).trans_le more
  cases change with
  | nothing => exact sound
  | registered publicKey votingPower fresh fits =>
    have unused : ¬ old.Known old.nextRegistrationId :=
      fun known => (sound.below _ known).ne rfl
    refine ⟨active (fun _ _ => Iff.rfl) ?_, ?_, below (lt_next fits) (lt_next fits).le⟩
    · rw [sound.active]
      refine iff_of_false (fun wrong => unused ?_) (fun wrong => nomatch wrong)
      simp [RegistryStorage.Known, wrong]
    · show Keyed (Validator.keyHash keccak ∘ _) _
      rw [hashes]
      exact sound.keyed.insert (RegistryStorage.keyHash_of_unknown unused) fresh
  | activated registrationId waits =>
    have known : old.Known registrationId := by simp [RegistryStorage.Known, waits]
    refine ⟨active (fun other apart => ?_) ?_, ?_, below (sound.below _ known) le_rfl⟩
    · rw [EnumerableSet.mem_add]
      exact ⟨fun either => either.resolve_left apart, Or.inr⟩
    · exact iff_of_true (EnumerableSet.mem_add.mpr (Or.inl rfl)) rfl
    · exact rekeyed _ _ (RegistryStorage.keyHash_of_known known).symm
  | removed registrationId known spares =>
    refine ⟨active (fun other apart => ?_) ?_, ?_, below (sound.below _ known) le_rfl⟩
    · rw [EnumerableSet.mem_remove]
      exact ⟨And.right, fun member => ⟨apart, member⟩⟩
    · refine iff_of_false (fun member => (EnumerableSet.mem_remove.mp member).1 rfl) ?_
      exact fun wrong => nomatch wrong
    · show Keyed (Validator.keyHash keccak ∘ _) _
      rw [hashes]
      exact sound.keyed.erase (RegistryStorage.keyHash_of_known known)
  | weighed registrationId newVotingPower known spares =>
    refine ⟨active (fun _ _ => Iff.rfl) (sound.active _), rekeyed _ _ ?_,
      below (sound.below _ known) le_rfl⟩
    rw [RegistryStorage.keyHash_of_known known]
    exact if_neg known

theorem Change.powered (change : Change keccak old shows new) (sound : WellFormed keccak old)
    (some' : ∃ registrationId, old.Powered registrationId) :
    ∃ registrationId, new.Powered registrationId := by
  obtain ⟨registrationId, powered⟩ := some'
  have kept : ∀ {touched other : U256} {validator : Validator}, old.Powered other →
      other ≠ touched →
      (Function.update old.validatorsByRegistrationId touched validator other).status = .active ∧
        0 < (Function.update old.validatorsByRegistrationId touched validator other).votingPower := by
    intro touched other validator still apart
    rw [Function.update_of_ne apart]
    exact still
  cases change with
  | nothing => exact ⟨registrationId, powered⟩
  | registered publicKey votingPower fresh fits =>
    refine ⟨registrationId, kept powered (sound.below registrationId ?_).ne⟩
    simp [RegistryStorage.Known, powered.1]
  | activated touched waits =>
    refine ⟨registrationId, kept powered ?_⟩
    rintro rfl
    cases waits.symm.trans powered.1
  | removed touched known spares =>
    by_cases mine : old.Powered touched
    · obtain ⟨other, apart, still⟩ := sound.exists_other_powered touched (spares mine)
      exact ⟨other, kept still apart⟩
    · exact ⟨registrationId, kept powered fun same => mine (same ▸ powered)⟩
  | weighed touched newVotingPower known spares =>
    by_cases mine : registrationId = touched
    · subst mine
      by_cases nothing : newVotingPower = 0
      · obtain ⟨other, apart, still⟩ :=
          sound.exists_other_powered registrationId (spares ⟨powered.1, powered.2, nothing⟩)
        exact ⟨other, kept still apart⟩
      · refine ⟨registrationId, ?_⟩
        unfold RegistryStorage.Powered
        simp only [Function.update_self]
        exact ⟨powered.1, Fin.pos_iff_ne_zero.mpr nothing⟩
    · exact ⟨registrationId, kept powered mine⟩

end Invariants

/-! ### Ids that were given up -/

section GivenUp

variable {keccak : List Byte → U256} {sender : Address} {registrationId : U256}

theorem fails_of_unknown {registry : ValidatorRegistry}
    (unknown : ¬ registry.storage.Known registrationId) {request : RegistryCall}
    (about : request = .activateValidator registrationId ∨
      request = .removeValidator registrationId ∨
      ∃ newVotingPower, request = .updateValidatorVotingPower registrationId newVotingPower) :
    Ensures (ValidatorRegistry.call keccak sender request) registry fun _ _ => False := by
  -- each of them first looks the id up
  rcases about with rfl | rfl | ⟨newVotingPower, rfl⟩
  all_goals
    refine ensures_bind (ensures_asOwner (ensures_bind (ensures_get ?_)))
    exact ensures_bind (ensures_requires fun known => (unknown known).elim)

/-- What a controller can ask of the validator it is configured for. -/
def ManagerCall.ControlsValidator (request : ManagerCall) : Prop :=
  request = .activateValidator ∨ request = .removeValidator ∨
    ∃ newVotingPower, request = .updateValidatorVotingPower newVotingPower

/-- **A controller of an id that is not in use does nothing.** -/
theorem callStep_of_unknown {contracts : Deployment} {request : ManagerCall}
    (unknown : ¬ contracts.registry.storage.Known (contracts.manager.registrationOf sender))
    (control : request.ControlsValidator) :
    callStep keccak contracts (.manager sender request) = (contracts, none) := by
  have delegated : ∀ registryRequest,
      (registryRequest = .activateValidator (contracts.manager.registrationOf sender) ∨
        registryRequest = .removeValidator (contracts.manager.registrationOf sender) ∨
        ∃ newVotingPower, registryRequest = .updateValidatorVotingPower
          (contracts.manager.registrationOf sender) newVotingPower) →
      Ensures (Deployment.delegate keccak registryRequest) contracts fun _ _ => False :=
    fun _ about => ensures_bind (ensures_get (ensures_focus (fails_of_unknown unknown about)))
  have fails : Ensures (Call.program keccak (.manager sender request)) contracts
      fun _ _ => False := by
    rcases control with rfl | rfl | ⟨newVotingPower, rfl⟩
    · refine ensures_bind (ensures_asController (ensures_bind (ensures_get ?_)))
      exact delegated _ (Or.inl rfl)
    · refine ensures_bind (ensures_asController (ensures_bind (ensures_get ?_)))
      exact delegated _ (Or.inr (Or.inl rfl))
    · refine ensures_bind (ensures_asController (ensures_bind (ensures_get ?_)))
      exact ensures_bind (ensures_requires fun _ =>
        delegated _ (Or.inr (Or.inr ⟨newVotingPower, rfl⟩)))
  unfold callStep
  cases ran : (Call.program keccak (.manager sender request)).run contracts with
  | error failure => rfl
  | ok result => exact (fails _ _ ran).elim

end GivenUp

/-! ### Whole runs -/

section Runs

variable {keccak : List Byte → U256} {start : Deployment}

theorem wellFormed_run (sound : WellFormed keccak start.registry.storage) (calls : List Call) :
    WellFormed keccak (run (callStep keccak) start calls).registry.storage :=
  run_kept (fun contracts call held => (change_callStep contracts call).wellFormed held) calls sound

theorem next_le_run (calls : List Call) : start.registry.storage.nextRegistrationId ≤
    (run (callStep keccak) start calls).registry.storage.nextRegistrationId := by
  induction calls generalizing start with
  | nil => exact le_rfl
  | cons call rest ih => exact (@change_callStep keccak start call).next_le.trans ih

theorem shown_mem_run {calls : List Call} {registrationId : U256}
    (shown : some registrationId ∈ outputs (callStep keccak) start calls) :
    start.registry.storage.nextRegistrationId ≤ registrationId ∧
      registrationId < (run (callStep keccak) start calls).registry.storage.nextRegistrationId := by
  induction calls generalizing start with
  | nil => cases shown
  | cons call rest ih =>
    have change := @change_callStep keccak start call
    rcases List.mem_cons.mp shown with first | later
    · rw [← first] at change
      obtain ⟨given, small⟩ := change.shown
      exact ⟨given.ge, small.trans_le (next_le_run rest)⟩
    · obtain ⟨more, small⟩ := ih later
      exact ⟨change.next_le.trans more, small⟩

theorem unknown_run {registrationId : U256} (calls : List Call)
    (given : registrationId < start.registry.storage.nextRegistrationId)
    (unknown : ¬ start.registry.storage.Known registrationId) :
    ¬ (run (callStep keccak) start calls).registry.storage.Known registrationId := by
  induction calls generalizing start with
  | nil => exact unknown
  | cons call rest ih =>
    have change := @change_callStep keccak start call
    exact ih (given.trans_le change.next_le) (change.unknown given unknown)

theorem powered_run (sound : WellFormed keccak start.registry.storage) (calls : List Call)
    (some' : ∃ registrationId, start.registry.storage.Powered registrationId) :
    ∃ registrationId,
      (run (callStep keccak) start calls).registry.storage.Powered registrationId := by
  induction calls generalizing start with
  | nil => exact some'
  | cons call rest ih =>
    have change := @change_callStep keccak start call
    exact ih (change.wellFormed sound) (change.powered sound some')

end Runs

/-- **The registry stays consistent.** From any well-formed registry, after any calls (`front`) and
any more (`back`): the active set is the set of active ids, known validators have different keys and
exactly their keys are marked, every known id is below the next one; an id handed out later is new
to every id known or handed out before; an id that was given up stays unknown and a controller
configured for it does nothing; and voting power does not run out. -/
theorem registry_invariants (keccak : List Byte → U256) (start : Deployment)
    (sound : WellFormed keccak start.registry.storage) (front back : List Call) :
    let middle := run (callStep keccak) start front
    let final := run (callStep keccak) start (front ++ back)
    let storage := final.registry.storage
    (∀ registrationId, registrationId ∈ storage.activeValidatorRegistrations ↔
      (storage.validatorsByRegistrationId registrationId).status = .active) ∧
    (∀ first second, storage.Known first → storage.Known second →
      (storage.validatorsByRegistrationId first).publicKey =
        (storage.validatorsByRegistrationId second).publicKey → first = second) ∧
    (∀ hash, storage.registeredPublicKeys hash = true ↔ ∃ registrationId,
      storage.Known registrationId ∧
        keccak (storage.validatorsByRegistrationId registrationId).publicKey = hash) ∧
    (∀ registrationId, storage.Known registrationId → registrationId < storage.nextRegistrationId) ∧
    (∀ registrationId, some registrationId ∈ outputs (callStep keccak) middle back →
      ∀ earlier, middle.registry.storage.Known earlier ∨
        some earlier ∈ outputs (callStep keccak) start front → earlier < registrationId) ∧
    (∀ registrationId, registrationId < middle.registry.storage.nextRegistrationId →
      ¬ middle.registry.storage.Known registrationId → ¬ storage.Known registrationId ∧
        ∀ sender request, final.manager.registrationOf sender = registrationId →
          request.ControlsValidator →
          callStep keccak final (.manager sender request) = (final, none)) ∧
    ((∃ registrationId, middle.registry.storage.Powered registrationId) →
      ∃ registrationId, storage.Powered registrationId) := by
  dsimp only
  have between := wellFormed_run sound front
  have finally' := wellFormed_run sound (front ++ back)
  refine ⟨finally'.active, fun _ _ known known' same => finally'.distinct known known' same,
    finally'.marked, finally'.below, ?_, ?_, ?_⟩
  · intro registrationId shown earlier before
    have least := (shown_mem_run shown).1
    rcases before with known | handed
    · exact (between.below earlier known).trans_le least
    · exact (shown_mem_run handed).2.trans_le least
  · intro registrationId given unknown
    rw [run_append]
    have forgotten := @unknown_run keccak _ registrationId back given unknown
    refine ⟨forgotten, fun sender request configured control => callStep_of_unknown ?_ control⟩
    rw [configured]
    exact forgotten
  · rw [run_append]
    exact powered_run between back

/-- A deployment without validators, of one owner. -/
def freshDeployment : Deployment :=
  ⟨⟨⟨7, 0⟩, emptyStorage 1⟩, ⟨⟨5, 0⟩, fun _ => 0, fun _ => 0, fun _ => false, 6, false⟩, 7⟩

/-- A registration with voting power. -/
def registration (key : Byte) (votingPower : U64) : Call :=
  .registry 7 (.registerValidator (List.replicate 32 key) votingPower)

/-- A hash that tells keys apart by their first byte. -/
def firstByte (publicKey : List Byte) : U256 := Fin.ofNat _ (publicKey.headD 0).val

/-- Two validators are registered and activated, and the first one is removed. -/
theorem registry_invariants_activation :
    let storage := (run (callStep firstByte) freshDeployment
      ([registration 1 5, registration 2 6, .registry 7 (.activateValidator 1)] ++
        [.registry 7 (.activateValidator 2), .registry 7 (.removeValidator 1)])).registry.storage
    (∀ registrationId, registrationId ∈ storage.activeValidatorRegistrations ↔
      (storage.validatorsByRegistrationId registrationId).status = .active) ∧
    (∀ hash, storage.registeredPublicKeys hash = true ↔ ∃ registrationId,
      storage.Known registrationId ∧
        firstByte (storage.validatorsByRegistrationId registrationId).publicKey = hash) ∧
    (∃ registrationId, storage.Powered registrationId) ∧
    storage.activeValidatorRegistrations.values = [2] ∧
    (storage.registeredPublicKeys 1, storage.registeredPublicKeys 2) = (false, true) := by
  obtain ⟨active, -, marked, -, -, -, powered⟩ :=
    registry_invariants firstByte freshDeployment (wellFormed_empty _ 1)
      [registration 1 5, registration 2 6, .registry 7 (.activateValidator 1)]
      [.registry 7 (.activateValidator 2), .registry 7 (.removeValidator 1)]
  exact ⟨active, marked, powered ⟨1, by decide +kernel, by decide +kernel⟩, by decide +kernel,
    by decide +kernel⟩

end ArcNode.Contracts
