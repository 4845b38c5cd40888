/-
**The contracts that keep the validators.**

ValidatorRegistry keeps the validators by registration id, the set of active ids, the hashes of the
registered keys and the next id; only its owner may change it. PermissionedValidatorManager, which
is meant to be that owner, lets registerers register keys and lets each controller act on the one id
it is configured for, with a voting power up to its limit. Each function is a program that stops at
the first failed `require`, in the order of the source, and a call that fails changes nothing.

Events are left out, and so are the functions that only read, but for the two the registry and the
node use. The proxies and their initialization are not modelled: a run starts from any deployed
pair.
-/

import Mathlib
import ArcNode.Lib.EnumerableSet
import ArcNode.Lib.Program
import ArcNode.Evm.State

namespace ArcNode.Contracts

open ArcNode.Lib ArcNode.Types ArcNode.Evm

/-! ### Storage -/

inductive ValidatorStatus where
  | unknown
  | registered
  | active
  deriving DecidableEq

/-- One entry of the registry. -/
structure Validator where
  status : ValidatorStatus
  publicKey : List Byte
  votingPower : U64
  deriving DecidableEq

/-- What an id without a validator reads as. -/
def Validator.deleted : Validator := ⟨.unknown, [], 0⟩

/-- `ValidatorRegistryStorage`; the keys are known by their hashes. -/
structure RegistryStorage where
  validatorsByRegistrationId : U256 → Validator
  activeValidatorRegistrations : EnumerableSet U256
  registeredPublicKeys : U256 → Bool
  nextRegistrationId : U256

/-- The two addresses of `Ownable2StepUpgradeable`. -/
structure Ownable where
  owner : Address
  pendingOwner : Address

/-- The registry: its owner and its storage. -/
structure ValidatorRegistry where
  ownable : Ownable
  storage : RegistryStorage

/-- The manager: its owner, its roles and whether it is paused. -/
structure ValidatorManager where
  ownable : Ownable
  registrationOf : Address → U256
  votingPowerLimitOf : Address → U64
  validatorRegisterers : Address → Bool
  pauser : Address
  paused : Bool

/-- The two contracts, and where the manager is. -/
structure Deployment where
  registry : ValidatorRegistry
  manager : ValidatorManager
  managerAddress : Address

/-- Why a call fails; `panic` is the checked arithmetic of Solidity. -/
inductive Revert where
  | validatorAlreadyRegistered (publicKeyHash : U256)
  | invalidRegistrationId (registrationId : U256)
  | invalidValidatorStatus (registrationId : U256) (status : ValidatorStatus)
  | invalidPublicKeyFormat
  | invalidVotingPowerUpdate
  | invalidValidatorSet
  | ownableUnauthorizedAccount (account : Address)
  | zeroOwnerAddress
  | votingPowerExceedsLimit (limit : U64)
  | zeroControllerAddress
  | callerIsNotController
  | registrationIdIsZero
  | controllerAlreadyConfigured
  | controllerNotConfigured
  | zeroValidatorRegistererAddress
  | callerIsNotValidatorRegisterer
  | validatorRegistererAlreadyAdded
  | validatorRegistererNotAdded
  | zeroPauserAddress
  | callerIsNotPauser
  | contractPaused
  | panic
  deriving DecidableEq

/-- A Solidity function on the storage `σ`, which may revert. -/
abbrev ContractM (σ : Type) := StateT σ (Except Revert)

/-- `require(condition, error)`. -/
def requires {σ : Type} (condition : Prop) [Decidable condition] (failure : Revert) :
    ContractM σ Unit :=
  require condition fun _ => failure

/-! ### Owners -/

section Owners

variable (sender : Address)

def onlyOwner : ContractM Ownable Unit := do
  let ownable ← get
  requires (ownable.owner = sender) (.ownableUnauthorizedAccount sender)

def transferOwnership (newOwner : Address) : ContractM Ownable Unit := do
  onlyOwner sender
  modify fun ownable => { ownable with pendingOwner := newOwner }

/-- Only the pending owner becomes the owner. -/
def acceptOwnership : ContractM Ownable Unit := do
  let ownable ← get
  requires (ownable.pendingOwner = sender) (.ownableUnauthorizedAccount sender)
  set (⟨sender, 0⟩ : Ownable)

def renounceOwnership : ContractM Ownable Unit := do
  onlyOwner sender
  set (⟨0, 0⟩ : Ownable)

end Owners

/-! ### ValidatorRegistry -/

def ed25519PublicKeyLength : ℕ := 32

namespace RegistryStorage

variable (storage : RegistryStorage)

/-- The count that both guards of the registry use. -/
def countActiveValidatorsWithPositiveVotingPower : ℕ :=
  storage.activeValidatorRegistrations.values.countP fun registrationId =>
    decide (0 < (storage.validatorsByRegistrationId registrationId).votingPower)

def getActiveValidatorSet : List Validator :=
  storage.activeValidatorRegistrations.values.map storage.validatorsByRegistrationId

end RegistryStorage

variable {α : Type}

section Registry

variable (keccak : List Byte → U256)

/-- A new id for a key that is not registered. -/
def registerValidator (publicKey : List Byte) (votingPower : U64) : ContractM RegistryStorage U256 := do
  requires (publicKey.length = ed25519PublicKeyLength) .invalidPublicKeyFormat
  let storage ← get
  let publicKeyHash := keccak publicKey
  requires (storage.registeredPublicKeys publicKeyHash = false)
    (.validatorAlreadyRegistered publicKeyHash)
  let registrationId := storage.nextRegistrationId
  requires (registrationId.val + 1 < 2 ^ 256) .panic
  set ({ storage with
    nextRegistrationId := registrationId + 1
    validatorsByRegistrationId := Function.update storage.validatorsByRegistrationId registrationId
      ⟨.registered, publicKey, votingPower⟩
    registeredPublicKeys := Function.update storage.registeredPublicKeys publicKeyHash true } :
    RegistryStorage)
  pure registrationId

/-- A registered validator becomes active. -/
def activateValidator (registrationId : U256) : ContractM RegistryStorage Unit := do
  let storage ← get
  let validatorInfo := storage.validatorsByRegistrationId registrationId
  requires (validatorInfo.status ≠ .unknown) (.invalidRegistrationId registrationId)
  requires (validatorInfo.status = .registered)
    (.invalidValidatorStatus registrationId validatorInfo.status)
  set ({ storage with
    validatorsByRegistrationId := Function.update storage.validatorsByRegistrationId registrationId
      { validatorInfo with status := .active }
    activeValidatorRegistrations := storage.activeValidatorRegistrations.add registrationId } :
    RegistryStorage)

/-- The last active validator with voting power may not be removed. -/
def removeValidator (registrationId : U256) : ContractM RegistryStorage Unit := do
  let storage ← get
  let validatorInfo := storage.validatorsByRegistrationId registrationId
  requires (validatorInfo.status ≠ .unknown) (.invalidRegistrationId registrationId)
  requires (validatorInfo.status = .active ∧ 0 < validatorInfo.votingPower →
    1 < storage.countActiveValidatorsWithPositiveVotingPower) .invalidValidatorSet
  set ({ storage with
    activeValidatorRegistrations := storage.activeValidatorRegistrations.remove registrationId
    validatorsByRegistrationId :=
      Function.update storage.validatorsByRegistrationId registrationId .deleted
    registeredPublicKeys := Function.update storage.registeredPublicKeys
      (keccak validatorInfo.publicKey) false } : RegistryStorage)

/-- Nor may its voting power be taken away. -/
def updateValidatorVotingPower (registrationId : U256) (newVotingPower : U64) :
    ContractM RegistryStorage Unit := do
  let storage ← get
  let validatorInfo := storage.validatorsByRegistrationId registrationId
  requires (validatorInfo.status ≠ .unknown) (.invalidRegistrationId registrationId)
  requires (validatorInfo.votingPower ≠ newVotingPower) .invalidVotingPowerUpdate
  requires (validatorInfo.status = .active ∧ 0 < validatorInfo.votingPower ∧ newVotingPower = 0 →
    1 < storage.countActiveValidatorsWithPositiveVotingPower) .invalidValidatorSet
  set ({ storage with
    validatorsByRegistrationId := Function.update storage.validatorsByRegistrationId registrationId
      { validatorInfo with votingPower := newVotingPower } } : RegistryStorage)

/-- The calls that change the registry. -/
inductive RegistryCall where
  | registerValidator (publicKey : List Byte) (votingPower : U64)
  | activateValidator (registrationId : U256)
  | removeValidator (registrationId : U256)
  | updateValidatorVotingPower (registrationId : U256) (newVotingPower : U64)
  | transferOwnership (newOwner : Address)
  | acceptOwnership
  | renounceOwnership

namespace ValidatorRegistry

def onOwnable (program : ContractM Ownable α) : ContractM ValidatorRegistry α :=
  focus ValidatorRegistry.ownable (fun ownable registry => { registry with ownable := ownable }) program

def onStorage (program : ContractM RegistryStorage α) : ContractM ValidatorRegistry α :=
  focus ValidatorRegistry.storage (fun storage registry => { registry with storage := storage }) program

/-- A function of the registry that is `onlyOwner`. -/
def asOwner (sender : Address) (program : ContractM RegistryStorage α) :
    ContractM ValidatorRegistry α := do
  onOwnable (onlyOwner sender)
  onStorage program

/-- A call of the registry; it shows the id of a registration. -/
def call (sender : Address) : RegistryCall → ContractM ValidatorRegistry (Option U256)
  | .registerValidator publicKey votingPower => do
    let registrationId ← asOwner sender (registerValidator keccak publicKey votingPower)
    pure (some registrationId)
  | .activateValidator registrationId => do
    asOwner sender (activateValidator registrationId)
    pure none
  | .removeValidator registrationId => do
    asOwner sender (removeValidator keccak registrationId)
    pure none
  | .updateValidatorVotingPower registrationId newVotingPower => do
    asOwner sender (updateValidatorVotingPower registrationId newVotingPower)
    pure none
  | .transferOwnership newOwner => do
    onOwnable (transferOwnership sender newOwner)
    pure none
  | .acceptOwnership => do
    onOwnable (acceptOwnership sender)
    pure none
  | .renounceOwnership => do
    onOwnable (renounceOwnership sender)
    pure none

end ValidatorRegistry

end Registry

/-! ### Roles of the manager -/

namespace ValidatorManager

def onOwnable (program : ContractM Ownable α) : ContractM ValidatorManager α :=
  focus ValidatorManager.ownable (fun ownable manager => { manager with ownable := ownable }) program

section Roles

variable (sender : Address)

def onlyController : ContractM ValidatorManager Unit := do
  let manager ← get
  requires (manager.registrationOf sender ≠ 0) .callerIsNotController

def onlyValidatorRegisterer : ContractM ValidatorManager Unit := do
  let manager ← get
  requires (manager.validatorRegisterers sender = true) .callerIsNotValidatorRegisterer

def onlyPauser : ContractM ValidatorManager Unit := do
  let manager ← get
  requires (sender = manager.pauser) .callerIsNotPauser

def whenNotPaused : ContractM ValidatorManager Unit := do
  let manager ← get
  requires (manager.paused = false) .contractPaused

variable (controller : Address)

/-- A controller is given one validator and a limit. -/
def configureController (registrationId : U256) (votingPowerLimit : U64) :
    ContractM ValidatorManager Unit := do
  onOwnable (onlyOwner sender)
  requires (registrationId ≠ 0) .registrationIdIsZero
  requires (controller ≠ 0) .zeroControllerAddress
  let manager ← get
  requires (manager.registrationOf controller = 0) .controllerAlreadyConfigured
  set ({ manager with
    registrationOf := Function.update manager.registrationOf controller registrationId
    votingPowerLimitOf := Function.update manager.votingPowerLimitOf controller votingPowerLimit } :
    ValidatorManager)

/-- The controller loses both. -/
def removeController : ContractM ValidatorManager Unit := do
  onOwnable (onlyOwner sender)
  requires (controller ≠ 0) .zeroControllerAddress
  let manager ← get
  requires (manager.registrationOf controller ≠ 0) .controllerNotConfigured
  set ({ manager with
    registrationOf := Function.update manager.registrationOf controller 0
    votingPowerLimitOf := Function.update manager.votingPowerLimitOf controller 0 } :
    ValidatorManager)

def updateVotingPowerLimit (newVotingPowerLimit : U64) : ContractM ValidatorManager Unit := do
  onOwnable (onlyOwner sender)
  requires (controller ≠ 0) .zeroControllerAddress
  let manager ← get
  requires (manager.registrationOf controller ≠ 0) .controllerNotConfigured
  set ({ manager with
    votingPowerLimitOf :=
      Function.update manager.votingPowerLimitOf controller newVotingPowerLimit } :
    ValidatorManager)

def addValidatorRegisterer (registerer : Address) : ContractM ValidatorManager Unit := do
  onOwnable (onlyOwner sender)
  requires (registerer ≠ 0) .zeroValidatorRegistererAddress
  let manager ← get
  requires (manager.validatorRegisterers registerer = false) .validatorRegistererAlreadyAdded
  set ({ manager with
    validatorRegisterers := Function.update manager.validatorRegisterers registerer true } :
    ValidatorManager)

def removeValidatorRegisterer (registerer : Address) : ContractM ValidatorManager Unit := do
  onOwnable (onlyOwner sender)
  requires (registerer ≠ 0) .zeroValidatorRegistererAddress
  let manager ← get
  requires (manager.validatorRegisterers registerer = true) .validatorRegistererNotAdded
  set ({ manager with
    validatorRegisterers := Function.update manager.validatorRegisterers registerer false } :
    ValidatorManager)

def updatePauser (newPauser : Address) : ContractM ValidatorManager Unit := do
  onOwnable (onlyOwner sender)
  requires (newPauser ≠ 0) .zeroPauserAddress
  modify fun manager => { manager with pauser := newPauser }

def pause : ContractM ValidatorManager Unit := do
  onlyPauser sender
  modify fun manager => { manager with paused := true }

def unpause : ContractM ValidatorManager Unit := do
  onlyPauser sender
  modify fun manager => { manager with paused := false }

end Roles

end ValidatorManager

/-! ### PermissionedValidatorManager -/

def defaultVotingPower : U64 := 0

inductive ManagerCall where
  | registerValidator (publicKey : List Byte)
  | activateValidator
  | removeValidator
  | updateValidatorVotingPower (newVotingPower : U64)
  | configureController (controller : Address) (registrationId : U256) (votingPowerLimit : U64)
  | removeController (controller : Address)
  | updateVotingPowerLimit (controller : Address) (newVotingPowerLimit : U64)
  | addValidatorRegisterer (registerer : Address)
  | removeValidatorRegisterer (registerer : Address)
  | updatePauser (newPauser : Address)
  | pause
  | unpause
  | transferRegistryOwner (newOwner : Address)
  | acceptRegistryOwnership
  | transferOwnership (newOwner : Address)
  | acceptOwnership
  | renounceOwnership

namespace Deployment

variable (keccak : List Byte → U256) (sender : Address)

def onRegistry (program : ContractM ValidatorRegistry α) : ContractM Deployment α :=
  focus Deployment.registry (fun registry contracts => { contracts with registry := registry }) program

def onManager (program : ContractM ValidatorManager α) : ContractM Deployment α :=
  focus Deployment.manager (fun manager contracts => { contracts with manager := manager }) program

/-- The manager calls the registry under its own address. -/
def delegate (request : RegistryCall) : ContractM Deployment (Option U256) := do
  let contracts ← get
  onRegistry (ValidatorRegistry.call keccak contracts.managerAddress request)

/-- A function of the manager that is `onlyController` and `whenNotPaused`. -/
def asController : ContractM Deployment Unit := do
  onManager (ValidatorManager.onlyController sender)
  onManager ValidatorManager.whenNotPaused

def registerValidator (publicKey : List Byte) : ContractM Deployment (Option U256) := do
  onManager (ValidatorManager.onlyValidatorRegisterer sender)
  onManager ValidatorManager.whenNotPaused
  delegate keccak (.registerValidator publicKey defaultVotingPower)

def activateValidator : ContractM Deployment (Option U256) := do
  asController sender
  let contracts ← get
  delegate keccak (.activateValidator (contracts.manager.registrationOf sender))

def removeValidator : ContractM Deployment (Option U256) := do
  asController sender
  let contracts ← get
  delegate keccak (.removeValidator (contracts.manager.registrationOf sender))

/-- Up to the limit of the controller. -/
def updateValidatorVotingPower (newVotingPower : U64) : ContractM Deployment (Option U256) := do
  asController sender
  let contracts ← get
  let votingPowerLimit := contracts.manager.votingPowerLimitOf sender
  requires (newVotingPower ≤ votingPowerLimit) (.votingPowerExceedsLimit votingPowerLimit)
  delegate keccak
    (.updateValidatorVotingPower (contracts.manager.registrationOf sender) newVotingPower)

def transferRegistryOwner (newOwner : Address) : ContractM Deployment (Option U256) := do
  onManager (ValidatorManager.onOwnable (onlyOwner sender))
  requires (newOwner ≠ 0) .zeroOwnerAddress
  delegate keccak (.transferOwnership newOwner)

def acceptRegistryOwnership : ContractM Deployment (Option U256) := do
  onManager (ValidatorManager.onOwnable (onlyOwner sender))
  delegate keccak .acceptOwnership

/-- A function that does not reach the registry. -/
def ownFunction (program : ContractM ValidatorManager Unit) : ContractM Deployment (Option U256) := do
  onManager program
  pure none

/-- A call of the manager. -/
def managerCall : ManagerCall → ContractM Deployment (Option U256)
  | .registerValidator publicKey => registerValidator keccak sender publicKey
  | .activateValidator => activateValidator keccak sender
  | .removeValidator => removeValidator keccak sender
  | .updateValidatorVotingPower newVotingPower =>
    updateValidatorVotingPower keccak sender newVotingPower
  | .configureController controller registrationId votingPowerLimit => ownFunction
    (ValidatorManager.configureController sender controller registrationId votingPowerLimit)
  | .removeController controller => ownFunction (ValidatorManager.removeController sender controller)
  | .updateVotingPowerLimit controller newVotingPowerLimit => ownFunction
    (ValidatorManager.updateVotingPowerLimit sender controller newVotingPowerLimit)
  | .addValidatorRegisterer registerer =>
    ownFunction (ValidatorManager.addValidatorRegisterer sender registerer)
  | .removeValidatorRegisterer registerer =>
    ownFunction (ValidatorManager.removeValidatorRegisterer sender registerer)
  | .updatePauser newPauser => ownFunction (ValidatorManager.updatePauser sender newPauser)
  | .pause => ownFunction (ValidatorManager.pause sender)
  | .unpause => ownFunction (ValidatorManager.unpause sender)
  | .transferRegistryOwner newOwner => transferRegistryOwner keccak sender newOwner
  | .acceptRegistryOwnership => acceptRegistryOwnership keccak sender
  | .transferOwnership newOwner =>
    ownFunction (ValidatorManager.onOwnable (Contracts.transferOwnership sender newOwner))
  | .acceptOwnership => ownFunction (ValidatorManager.onOwnable (Contracts.acceptOwnership sender))
  | .renounceOwnership => ownFunction (ValidatorManager.onOwnable (Contracts.renounceOwnership sender))

end Deployment

/-! ### Calls -/

/-- A call of either contract. -/
inductive Call where
  | registry (sender : Address) (request : RegistryCall)
  | manager (sender : Address) (request : ManagerCall)

def Call.program (keccak : List Byte → U256) : Call → ContractM Deployment (Option U256)
  | .registry sender request => Deployment.onRegistry (ValidatorRegistry.call keccak sender request)
  | .manager sender request => Deployment.managerCall keccak sender request

/-- One call: a failed one reverts. It shows the id of a registration. -/
def callStep (keccak : List Byte → U256) (contracts : Deployment) (call : Call) :
    Deployment × Option U256 :=
  match (call.program keccak).run contracts with
  | .ok (registrationId, after) => (after, registrationId)
  | .error _ => (contracts, none)

end ArcNode.Contracts
