/-
**From the registry to the validators of consensus.**

The node calls `getActiveValidatorSet`, skips what is not active, has no voting power or a malformed
key, and sorts the rest (`abiDecodeValidatorSet`). In every reachable state of the registry, one
loadable validator is enough for the load to succeed with all loadable validators, each once. The
total voting power is a checked sum that nothing on the chain bounds: it panics exactly when it does
not fit (**`validator_set_total_iff`**). The ABI encoding is generated code and appears with its
law; which keys are points of the curve is a parameter.
-/

import Mathlib
import ArcNode.App.ProposalParts
import ArcNode.Contracts.RegistryInvariants

namespace ArcNode.Engine

open ArcNode.Lib ArcNode.Types ArcNode.Evm ArcNode.App

/-- The generated encoding of what `getActiveValidatorSet` returns. -/
structure ValidatorSetAbi where
  encodeReturns : List Contracts.Validator → List Byte
  decodeReturns : List Byte → Option (List Contracts.Validator)
  faithful : ∀ validators, decodeReturns (encodeReturns validators) = some validators

/-- The key functions of the signing crate: which 32 bytes are a key, and the address of a key, a
truncated hash. -/
structure KeyFunctions where
  isPoint : PublicKey → Bool
  fromPublicKey : PublicKey → Address

section Decode

variable (keys : KeyFunctions)

def fromBytes (bytes : List Byte) : Option PublicKey :=
  let key := Fin.ofNat _ (beValue bytes)
  if keys.isPoint key then some key else none

def tryDecodeValidator (validator : Contracts.Validator) : Except String Validator :=
  if validator.publicKey.length ≠ 32 then
    .error s!"Public key must be exactly 32 bytes, got {validator.publicKey.length}"
  else
    match fromBytes keys validator.publicKey with
    | none => .error "Failed to decode public key bytes"
    | some key => .ok ⟨keys.fromPublicKey key, key, validator.votingPower⟩

/-- One turn of the loop of `abi_decode_validator_set`: the validators so far and the skipped
ones. -/
def keepValid (state : List Validator × ℕ) (validator : Contracts.Validator) : List Validator × ℕ :=
  if validator.status ≠ .active ∨ validator.votingPower = 0 then state
  else
    match tryDecodeValidator keys validator with
    | .ok decoded => (state.1 ++ [decoded], state.2)
    | .error _ => (state.1, state.2 + 1)

/-- The key that validators are sorted by: voting power, greatest first, then the address. -/
def sortKey (validator : Validator) : U64ᵒᵈ ×ₗ Address :=
  toLex (OrderDual.toDual validator.votingPower, validator.address)

/-- `sort_validators`: sorted, and of equal neighbours one. -/
def sortValidators (validators : List Validator) : List Validator :=
  (validators.insertionSort fun first second => sortKey first ≤ sortKey second).destutter (· ≠ ·)

/-- `ValidatorSet::new`; `none` is the assertion against an empty set. -/
def ValidatorSet.new (validators : List Validator) : Option ValidatorSet :=
  if (sortValidators validators).isEmpty then none else some (sortValidators validators)

/-- `abi_decode_validator_set`; `none` is a panic. -/
def abiDecodeValidatorSet (abi : ValidatorSetAbi) (result : List Byte) :
    Option (Except String ValidatorSet) :=
  match abi.decodeReturns result with
  | none => some (.error "ABI decoding failed")
  | some activeValidators =>
    let decoded := activeValidators.foldl (keepValid keys) ([], 0)
    if decoded.1.isEmpty then
      some (.error ("No active validators with valid public keys — validator set would be empty "
        ++ s!"({decoded.2} active validator(s) skipped due to malformed public keys)"))
    else (ValidatorSet.new decoded.1).map .ok

/-- `ValidatorSet::total_voting_power`; `none` is the panic on overflow. -/
def totalVotingPower (validators : ValidatorSet) : Option U64 :=
  validators.foldlM (fun total validator => U64.checkedAdd total validator.votingPower) 0

/-! ### What is loaded -/

def loaded (validator : Contracts.Validator) : Option Validator :=
  if validator.status ≠ .active ∨ validator.votingPower = 0 then none
  else (tryDecodeValidator keys validator).toOption

theorem foldl_admit (validators : List Contracts.Validator) (state : List Validator × ℕ) :
    (validators.foldl (keepValid keys) state).1 = state.1 ++ validators.filterMap (loaded keys) := by
  induction validators generalizing state with
  | nil => simp
  | cons validator rest ih =>
    rw [List.foldl_cons, ih, List.filterMap_cons, loaded, keepValid]
    by_cases skipped : validator.status ≠ .active ∨ validator.votingPower = 0
    · rw [if_pos skipped, if_pos skipped]
    · rw [if_neg skipped, if_neg skipped]
      cases tryDecodeValidator keys validator with
      | error message => rfl
      | ok decoded => simp [Except.toOption]

end Decode

section Sorting

variable {validators : List Validator}

theorem sortValidators_perm (distinct : validators.Pairwise fun first second =>
    first.address ≠ second.address) : (sortValidators validators).Perm validators := by
  have sorted := List.perm_insertionSort
    (fun first second : Validator => sortKey first ≤ sortKey second) validators
  have nodup : validators.Nodup := distinct.imp fun apart same => apart (congrArg _ same)
  unfold sortValidators
  rw [List.destutter_of_isChain _ _ (sorted.nodup_iff.mpr nodup).isChain]
  exact sorted

theorem foldlM_checkedAdd (start : U64) :
    validators.foldlM (fun total validator => U64.checkedAdd total validator.votingPower) start =
      if start.val + (validators.map fun validator => validator.votingPower.val).sum < 2 ^ 64 then
        some (Fin.ofNat _
          (start.val + (validators.map fun validator => validator.votingPower.val).sum))
      else none := by
  induction validators generalizing start with
  | nil =>
    rw [List.foldlM_nil, List.map_nil, List.sum_nil, Nat.add_zero, if_pos start.isLt]
    exact congrArg some (Fin.ext (Nat.mod_eq_of_lt start.isLt).symm)
  | cons validator rest ih =>
    rw [List.foldlM_cons, List.map_cons, List.sum_cons, ← Nat.add_assoc]
    by_cases fits : start.val + validator.votingPower.val < 2 ^ 64
    · have added : start.checkedAdd validator.votingPower = some (start + validator.votingPower) :=
        if_pos fits
      have value : (start + validator.votingPower).val = start.val + validator.votingPower.val := by
        rw [Fin.val_add]
        exact Nat.mod_eq_of_lt fits
      rw [added]
      show List.foldlM _ _ rest = _
      rw [ih, value]
    · have panics : start.checkedAdd validator.votingPower = none := if_neg fits
      rw [panics, if_neg (by omega)]
      rfl

theorem totalVotingPower_eq (validators : ValidatorSet) : totalVotingPower validators =
    if (validators.map fun validator => validator.votingPower.val).sum < 2 ^ 64 then
      some (Fin.ofNat _ (validators.map fun validator => validator.votingPower.val).sum)
    else none := by
  rw [totalVotingPower, foldlM_checkedAdd, Fin.val_zero, Nat.zero_add]

end Sorting

/-! ### The registry and the set -/

section Load

variable (keys : KeyFunctions)

def Decodable (publicKey : List Byte) : Prop :=
  publicKey.length = 32 ∧ keys.isPoint (Fin.ofNat _ (beValue publicKey)) = true
  deriving Decidable

def asValidator (validator : Contracts.Validator) : Validator :=
  let key := Fin.ofNat _ (beValue validator.publicKey)
  ⟨keys.fromPublicKey key, key, validator.votingPower⟩

theorem loaded_eq_some_iff {validator : Contracts.Validator} {decoded : Validator} :
    loaded keys validator = some decoded ↔ validator.status = .active ∧ 0 < validator.votingPower ∧
      Decodable keys validator.publicKey ∧ decoded = asValidator keys validator := by
  unfold loaded
  by_cases skipped : validator.status ≠ .active ∨ validator.votingPower = 0
  · rw [if_pos skipped]
    refine iff_of_false (fun wrong => nomatch wrong) ?_
    rintro ⟨active, powered, -⟩
    rcases skipped with other | nothing
    · exact other active
    · exact powered.ne' nothing
  · obtain ⟨active, powered⟩ := not_or.mp skipped
    rw [if_neg skipped, tryDecodeValidator, fromBytes]
    by_cases length : validator.publicKey.length = 32
    · rw [if_neg (not_not.mpr length)]
      by_cases point : keys.isPoint (Fin.ofNat _ (beValue validator.publicKey)) = true
      · simp only [point, if_true, Except.toOption, Option.some.injEq]
        refine ⟨fun same => ⟨not_not.mp active, Fin.pos_iff_ne_zero.mpr powered,
          ⟨length, point⟩, same.symm⟩, fun all => all.2.2.2.symm⟩
      · simp only [point, Except.toOption]
        exact iff_of_false (fun wrong => nomatch wrong) fun all => point all.2.2.1.2
    · rw [if_pos length]
      exact iff_of_false (fun wrong => nomatch wrong) fun all => length all.2.2.1.1

def loadablePower (storage : Contracts.RegistryStorage) : ℕ :=
  (storage.activeValidatorRegistrations.values.map fun registrationId =>
    if Decodable keys (storage.validatorsByRegistrationId registrationId).publicKey then
      (storage.validatorsByRegistrationId registrationId).votingPower.val
    else 0).sum

/-- Of entries that are all active, the loaded ones have the loadable power. -/
theorem sum_loaded {ids : List U256} {validators : U256 → Contracts.Validator}
    (active : ∀ registrationId ∈ ids, (validators registrationId).status = .active) :
    (((ids.map validators).filterMap (loaded keys)).map fun validator =>
        validator.votingPower.val).sum =
      (ids.map fun registrationId =>
        if Decodable keys (validators registrationId).publicKey then
          (validators registrationId).votingPower.val
        else 0).sum := by
  induction ids with
  | nil => rfl
  | cons registrationId rest ih =>
    have here := active registrationId List.mem_cons_self
    have later := ih fun other member => active other (List.mem_cons_of_mem _ member)
    rw [List.map_cons, List.map_cons, List.filterMap_cons, List.sum_cons, ← later]
    cases found : loaded keys (validators registrationId) with
    | some decoded =>
      obtain ⟨-, -, decodable, rfl⟩ := (loaded_eq_some_iff keys).mp found
      rw [if_pos decodable, List.map_cons, List.sum_cons]
      rfl
    | none =>
      by_cases decodable : Decodable keys (validators registrationId).publicKey
      · have nothing : (validators registrationId).votingPower = 0 := by
          by_contra powered
          have loads := (loaded_eq_some_iff keys).mpr
            ⟨here, Fin.pos_iff_ne_zero.mpr powered, decodable, rfl⟩
          rw [found] at loads
          cases loads
        rw [if_pos decodable, nothing, Fin.val_zero, Nat.zero_add]
      · rw [if_neg decodable, Nat.zero_add]

variable {keys} {keccak : List Byte → U256} {storage : Contracts.RegistryStorage}

theorem mem_loaded_iff (sound : Contracts.WellFormed keccak storage) {validator : Validator} :
    validator ∈ storage.getActiveValidatorSet.filterMap (loaded keys) ↔ ∃ registrationId,
      storage.Powered registrationId ∧
        Decodable keys (storage.validatorsByRegistrationId registrationId).publicKey ∧
        validator = asValidator keys (storage.validatorsByRegistrationId registrationId) := by
  rw [List.mem_filterMap]
  constructor
  · rintro ⟨entry, member, found⟩
    obtain ⟨registrationId, -, rfl⟩ := List.mem_map.mp member
    obtain ⟨active, powered, decodable, same⟩ := (loaded_eq_some_iff keys).mp found
    exact ⟨registrationId, ⟨active, powered⟩, decodable, same⟩
  · rintro ⟨registrationId, ⟨active, powered⟩, decodable, same⟩
    exact ⟨_, List.mem_map.mpr ⟨registrationId, (sound.active registrationId).mpr active, rfl⟩,
      (loaded_eq_some_iff keys).mpr ⟨active, powered, decodable, same⟩⟩

/-- Without two keys of one address, the loaded validators have different addresses. -/
theorem pairwise_loaded (sound : Contracts.WellFormed keccak storage)
    (collisionless : ∀ first second, storage.Powered first → storage.Powered second →
      (asValidator keys (storage.validatorsByRegistrationId first)).address =
        (asValidator keys (storage.validatorsByRegistrationId second)).address →
      (storage.validatorsByRegistrationId first).publicKey =
        (storage.validatorsByRegistrationId second).publicKey) :
    (storage.getActiveValidatorSet.filterMap (loaded keys)).Pairwise fun first second =>
      first.address ≠ second.address := by
  unfold Contracts.RegistryStorage.getActiveValidatorSet
  rw [List.pairwise_filterMap, List.pairwise_map]
  refine storage.activeValidatorRegistrations.nodup.imp fun apart first found second found' same => ?_
  obtain ⟨active, powered, -, rfl⟩ := (loaded_eq_some_iff keys).mp found
  obtain ⟨active', powered', -, rfl⟩ := (loaded_eq_some_iff keys).mp found'
  refine apart (sound.distinct ?_ ?_ (collisionless _ _ ⟨active, powered⟩ ⟨active', powered'⟩ same))
  · simp [Contracts.RegistryStorage.Known, active]
  · simp [Contracts.RegistryStorage.Known, active']

end Load

/-- **The node loads every validator set, and the total voting power panics exactly when it does not
fit.** In every reachable state with a loadable validator: the set is loaded, its addresses are
different, it holds exactly the active validators with voting power and a readable key, and the
total is the sum of their powers, as long as that is below `2 ^ 64`. -/
theorem validator_set_total_iff (keys : KeyFunctions) (abi : ValidatorSetAbi)
    (keccak : List Byte → U256) (start : Contracts.Deployment)
    (sound : Contracts.WellFormed keccak start.registry.storage) (calls : List Contracts.Call)
    (storage : Contracts.RegistryStorage)
    (reached : storage = (run (Contracts.callStep keccak) start calls).registry.storage)
    (loadable : ∃ registrationId, storage.Powered registrationId ∧
      Decodable keys (storage.validatorsByRegistrationId registrationId).publicKey)
    (collisionless : ∀ first second, storage.Powered first → storage.Powered second →
      (asValidator keys (storage.validatorsByRegistrationId first)).address =
        (asValidator keys (storage.validatorsByRegistrationId second)).address →
      (storage.validatorsByRegistrationId first).publicKey =
        (storage.validatorsByRegistrationId second).publicKey) :
    ∃ validatorSet, abiDecodeValidatorSet keys abi (abi.encodeReturns storage.getActiveValidatorSet) =
        some (.ok validatorSet) ∧
      (validatorSet.map Validator.address).Nodup ∧
      (∀ validator, validator ∈ validatorSet ↔ ∃ registrationId, storage.Powered registrationId ∧
        Decodable keys (storage.validatorsByRegistrationId registrationId).publicKey ∧
        validator = asValidator keys (storage.validatorsByRegistrationId registrationId)) ∧
      ((∃ total, totalVotingPower validatorSet = some total ∧
        total.val = loadablePower keys storage) ↔ loadablePower keys storage < 2 ^ 64) := by
  have wellFormed : Contracts.WellFormed keccak storage :=
    reached ▸ Contracts.wellFormed_run sound calls
  have members := @mem_loaded_iff keys keccak storage wellFormed
  have distinct := pairwise_loaded wellFormed collisionless
  have power : loadablePower keys storage =
      ((storage.getActiveValidatorSet.filterMap (loaded keys)).map fun validator =>
        validator.votingPower.val).sum :=
    (sum_loaded keys fun registrationId member => (wellFormed.active registrationId).mp member).symm
  have decoded : (storage.getActiveValidatorSet.foldl (keepValid keys) ([], 0)).1 =
      storage.getActiveValidatorSet.filterMap (loaded keys) := foldl_admit keys _ _
  have nonempty : (storage.getActiveValidatorSet.filterMap (loaded keys)).isEmpty = false := by
    obtain ⟨registrationId, powered, decodable⟩ := loadable
    rw [List.isEmpty_eq_false_iff_exists_mem]
    exact ⟨_, members.mpr ⟨registrationId, powered, decodable, rfl⟩⟩
  have sorted := sortValidators_perm distinct
  refine ⟨sortValidators (storage.getActiveValidatorSet.filterMap (loaded keys)), ?_, ?_, ?_, ?_⟩
  · have kept : (sortValidators (storage.getActiveValidatorSet.filterMap (loaded keys))).isEmpty =
        false := by
      rw [sorted.isEmpty_eq]
      exact nonempty
    unfold abiDecodeValidatorSet ValidatorSet.new
    rw [abi.faithful]
    dsimp only
    rw [decoded, nonempty, if_neg Bool.false_ne_true, kept, if_neg Bool.false_ne_true]
    rfl
  · rw [(sorted.map Validator.address).nodup_iff, List.Nodup, List.pairwise_map]
    exact distinct
  · intro validator
    rw [sorted.mem_iff]
    exact members
  · rw [totalVotingPower_eq, (sorted.map _).sum_eq, ← power]
    by_cases fits : loadablePower keys storage < 2 ^ 64
    · rw [if_pos fits]
      exact iff_of_true ⟨_, rfl, Nat.mod_eq_of_lt fits⟩ fits
    · rw [if_neg fits]
      refine iff_of_false ?_ fits
      rintro ⟨total, panics, -⟩
      cases panics

/-! ### Light and heavy validators -/

/-- Key functions for which every key is readable and its address is its last bytes. -/
def plainKeys : KeyFunctions := ⟨fun _ => true, fun key => Fin.ofNat _ key.val⟩

/-- Items in a row: a one before every byte, a zero after every item. -/
def packItems (items : List (List Byte)) : List Byte :=
  items.flatMap fun item => item.flatMap (fun byte => [1, byte]) ++ [0]

def unpackItems : List Byte → List (List Byte)
  | 1 :: byte :: rest => (unpackItems rest).modifyHead (byte :: ·)
  | 0 :: rest => [] :: unpackItems rest
  | _ => []

theorem unpackItems_packItems (items : List (List Byte)) : unpackItems (packItems items) = items := by
  induction items with
  | nil => rfl
  | cons item rest ih =>
    have front : ∀ tail, unpackItems (item.flatMap (fun byte => [1, byte]) ++ 0 :: tail) =
        item :: unpackItems tail := by
      intro tail
      induction item with
      | nil => rfl
      | cons byte more ih => simp [unpackItems, ih]
    have whole := front (packItems rest)
    rw [ih] at whole
    simpa [packItems] using whole

def validatorBytes (validator : Contracts.Validator) : List Byte :=
  (match validator.status with
    | .unknown => 0
    | .registered => 1
    | .active => 2) :: (beBytes 8 validator.votingPower.val ++ validator.publicKey)

def validatorOf : List Byte → Contracts.Validator
  | [] => .deleted
  | status :: rest =>
    ⟨if status = 0 then .unknown else if status = 1 then .registered else .active, rest.drop 8,
      Fin.ofNat _ (beValue (rest.take 8))⟩

theorem validatorOf_validatorBytes (validator : Contracts.Validator) :
    validatorOf (validatorBytes validator) = validator := by
  obtain ⟨status, key, power⟩ := validator
  have small : power.val < 256 ^ 8 := power.isLt
  simp only [validatorBytes, validatorOf, List.take_left' (length_beBytes ..),
    List.drop_left' (length_beBytes ..), beValue_beBytes small, Fin.ofNat_val_eq_self]
  cases status <;> rfl

/-- An encoding written out: a status, eight bytes of power and the key, in a row. -/
def packedAbi : ValidatorSetAbi where
  encodeReturns validators := packItems (validators.map validatorBytes)
  decodeReturns bytes := some ((unpackItems bytes).map validatorOf)
  faithful validators := by
    rw [unpackItems_packItems, List.map_map]
    exact congrArg some ((List.map_congr_left fun validator _ =>
      validatorOf_validatorBytes validator).trans (List.map_id _))

/-- Two validators, registered and weighed through the manager by a controller each. -/
def twoValidators (votingPower : U64) : List Contracts.Call :=
  [.manager 5 (.addValidatorRegisterer 8), .manager 8 (.registerValidator (List.replicate 32 1)),
    .manager 8 (.registerValidator (List.replicate 32 2)),
    .manager 5 (.configureController 11 1 votingPower),
    .manager 5 (.configureController 12 2 votingPower), .manager 11 .activateValidator,
    .manager 12 .activateValidator, .manager 11 (.updateValidatorVotingPower votingPower),
    .manager 12 (.updateValidatorVotingPower votingPower)]

/-- The storage of the registry with the two validators. -/
def weighedStorage (votingPower : U64) : Contracts.RegistryStorage :=
  (run (Contracts.callStep Contracts.firstByte) Contracts.freshDeployment
    (twoValidators votingPower)).registry.storage

theorem powered_weighedStorage {registrationId : U256}
    (powered : (weighedStorage 5).Powered registrationId) :
    registrationId = 1 ∨ registrationId = 2 := by
  have known : (weighedStorage 5).Known registrationId := by
    simp [Contracts.RegistryStorage.Known, powered.1]
  have below := (Contracts.wellFormed_run (Contracts.wellFormed_empty Contracts.firstByte 1)
    (twoValidators 5)).below registrationId known
  have next : (run (Contracts.callStep Contracts.firstByte) Contracts.freshDeployment
      (twoValidators 5)).registry.storage.nextRegistrationId = 3 := by decide +kernel
  have zeroth : ((weighedStorage 5).validatorsByRegistrationId 0).status ≠ .active := by
    decide +kernel
  rw [next, Fin.lt_def] at below
  have small : registrationId.val < 3 := below
  have nonzero : registrationId.val ≠ 0 := fun zero => by
    rw [show registrationId = 0 from Fin.ext zero] at powered
    exact zeroth powered.1
  have cases : registrationId.val = 1 ∨ registrationId.val = 2 := by omega
  exact cases.imp Fin.ext Fin.ext

/-- Two light validators are loaded and weigh ten together. -/
theorem validator_set_total_light : loadablePower plainKeys (weighedStorage 5) = 10 ∧
    ∃ validatorSet, abiDecodeValidatorSet plainKeys packedAbi
        (packedAbi.encodeReturns (weighedStorage 5).getActiveValidatorSet) = some (.ok validatorSet) ∧
      ∃ total, totalVotingPower validatorSet = some total ∧
        total.val = loadablePower plainKeys (weighedStorage 5) := by
  have collisionless : ∀ first second, (weighedStorage 5).Powered first →
      (weighedStorage 5).Powered second →
      (asValidator plainKeys ((weighedStorage 5).validatorsByRegistrationId first)).address =
        (asValidator plainKeys ((weighedStorage 5).validatorsByRegistrationId second)).address →
      ((weighedStorage 5).validatorsByRegistrationId first).publicKey =
        ((weighedStorage 5).validatorsByRegistrationId second).publicKey := by
    intro first second powered powered' same
    rcases powered_weighedStorage powered with rfl | rfl <;>
      rcases powered_weighedStorage powered' with rfl | rfl
    · rfl
    · exact absurd same (by decide +kernel)
    · exact absurd same (by decide +kernel)
    · rfl
  have light : loadablePower plainKeys (weighedStorage 5) = 10 := by decide +kernel
  have loadable : (weighedStorage 5).Powered 1 ∧
      Decodable plainKeys ((weighedStorage 5).validatorsByRegistrationId 1).publicKey :=
    ⟨⟨by decide +kernel, by decide +kernel⟩, by decide +kernel⟩
  obtain ⟨validatorSet, decodes, -, -, total⟩ := validator_set_total_iff plainKeys packedAbi
    Contracts.firstByte Contracts.freshDeployment
    (Contracts.wellFormed_empty Contracts.firstByte 1) (twoValidators 5) (weighedStorage 5) rfl ⟨1, loadable⟩ collisionless
  exact ⟨light, validatorSet, decodes, total.mpr (by rw [light]; decide)⟩

/-- **Two heavy validators are loaded and make the node panic.** Each has half of the range of 64
bits, within the limit of its controller. -/
theorem heavy_validators_panic : (abiDecodeValidatorSet plainKeys packedAbi
        (packedAbi.encodeReturns (weighedStorage (2 ^ 63)).getActiveValidatorSet)).map (fun outcome =>
      outcome.toOption.map totalVotingPower) = some (some none) := by
  decide +kernel

end ArcNode.Engine
