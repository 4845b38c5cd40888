/-
**The base fee.**

Translated from the crate `execution-config`: the smoothing of the gas used and the step of the base
fee (`gas_fee.rs`), the bounds that a network sets on the parameters of both (`chainspec.rs`), and
what the node makes of the answer of the ProtocolConfig contract (`protocol_config.rs`).

Products and quotients of 128 bits may overflow or divide by zero; such a step ends in `none`. A
`BoundedParam` and the two configurations carry the order that their constructors assert.
-/

import Mathlib
import ArcNode.Lib.Bytes
import ArcNode.Lib.Control
import ArcNode.Evm.State

namespace ArcNode.Fees

open ArcNode.Lib ArcNode.Types ArcNode.Evm

/-! ### Numbers -/

/-- `try_into` of a 256-bit word. -/
def ofU256 (value : U256) : Option U64 :=
  if value.val < 2 ^ 64 then some (Fin.ofNat _ value.val) else none

def mul128 (first second : ℕ) : Option ℕ :=
  if first * second < 2 ^ 128 then some (first * second) else none

def add128 (first second : ℕ) : Option ℕ :=
  if first + second < 2 ^ 128 then some (first + second) else none

def div128 (dividend divisor : ℕ) : Option ℕ :=
  if divisor = 0 then none else some (dividend / divisor)

/-! ### The step of the base fee -/

def alphaMax : ℕ := 100

/-- `determine_ema_parent_gas_used`; `none` is an overflow or a bad weight. -/
def determineEmaParentGasUsed (smoothedParentGasUsed rawBlockGasUsed alpha : U64) : Option U64 :=
  if alphaMax < alpha.val then none
  else
    (mul128 (alphaMax - alpha.val) smoothedParentGasUsed.val).bind fun left =>
      (mul128 alpha.val rawBlockGasUsed.val).bind fun right =>
        (add128 left right).bind fun together =>
          if together / alphaMax < 2 ^ 64 then some (Fin.ofNat _ (together / alphaMax)) else none

/-- The base fee in the extra data of a header: eight bytes. -/
def decodeBaseFeeFromBytes (extraData : List Byte) : Option U64 :=
  if extraData.length = 8 then some (Fin.ofNat _ (beValue extraData)) else none

def fixedPointScale : ℕ := 10000

/-- The gas a block should use. -/
def gasTarget (gasLimit inverseElasticityMultiplier : U64) : U64 :=
  U64.ofNatSaturating (gasLimit.val * inverseElasticityMultiplier.val / fixedPointScale)

/-- `arc_calc_next_block_base_fee`; `none` is an overflow or a division by zero. -/
def arcCalcNextBlockBaseFee (gasUsed gasLimit baseFee kRate inverseElasticityMultiplier : U64) :
    Option U64 :=
  (mul128 gasLimit.val inverseElasticityMultiplier.val).bind fun scaled =>
    let target := U64.ofNatSaturating (scaled / fixedPointScale)
    if target = 0 ∨ kRate = 0 then some baseFee
    else
      (mul128 target.val fixedPointScale).bind fun enlarged =>
        (div128 enlarged kRate.val).bind fun denominator =>
          if denominator = 0 then some baseFee
          else if gasUsed = target then some baseFee
          else if target < gasUsed then
            (mul128 baseFee.val (gasUsed.val - target.val)).bind fun product =>
              (div128 product denominator).bind fun increase =>
                some (baseFee.saturatingAdd (max 1 (U64.ofNatSaturating increase)))
          else
            (mul128 baseFee.val (target.val - gasUsed.val)).bind fun product =>
              (div128 product denominator).bind fun decrease =>
                some (baseFee.saturatingSub (U64.ofNatSaturating decrease))

/-! ### The configuration of a network -/

/-- A parameter with its range and the value that stands in for one outside of it. -/
structure BoundedParam (α : Type) [LE α] where
  min : α
  default : α
  max : α
  ordered : min ≤ default ∧ default ≤ max

/-- The value on chain, or the default where it is out of range. -/
def BoundedParam.resolve {α : Type} [LE α] [DecidableLE α] (param : BoundedParam α) (onChain : α) :
    α :=
  if param.min ≤ onChain ∧ onChain ≤ param.max then onChain else param.default

structure BaseFeeCalcParams where
  alpha : U64
  kRate : U64
  inverseElasticityMultiplier : U64

/-- The answer of ProtocolConfig. -/
structure FeeParams where
  alpha : U64
  kRate : U64
  inverseElasticityMultiplier : U64
  minBaseFee : U256
  maxBaseFee : U256
  blockGasLimit : U256

/-- The bounds of a chain on what ProtocolConfig answers. -/
structure BaseFeeConfig where
  alpha : BoundedParam U64
  kRate : BoundedParam U64
  inverseElasticityMultiplier : BoundedParam U64
  absoluteMinBaseFee : U64
  absoluteMaxBaseFee : U64
  ordered : absoluteMinBaseFee ≤ absoluteMaxBaseFee

namespace BaseFeeConfig

/-- `resolve_calc_params`: each parameter on its own, with the default where it is out of range. -/
def resolveCalcParams (config : BaseFeeConfig) : Option FeeParams → BaseFeeCalcParams
  | none =>
    ⟨config.alpha.default, config.kRate.default, config.inverseElasticityMultiplier.default⟩
  | some params =>
    ⟨config.alpha.resolve params.alpha, config.kRate.resolve params.kRate,
      config.inverseElasticityMultiplier.resolve params.inverseElasticityMultiplier⟩

def clampAbsolute (config : BaseFeeConfig) (baseFee : U64) : U64 :=
  U64.clamp config.absoluteMinBaseFee config.absoluteMaxBaseFee baseFee

end BaseFeeConfig

structure BlockGasLimitConfig where
  min : U64
  max : U64
  default : U64
  ordered : min ≤ default ∧ default ≤ max

/-- What the node takes from its chain spec here: the chain, and the forks at a height and time. -/
structure ArcChainSpec where
  chainId : ℕ
  hardforkFlags : ℕ → ℕ → ArcHardforkFlags

def mainnetChainId : ℕ := 5042

def testnetChainId : ℕ := 5042002

theorem public_gasLimit_ordered : (10000000 : U64) ≤ 30000000 ∧ (30000000 : U64) ≤ 200000000 := by
  decide

theorem other_gasLimit_ordered : (1000000 : U64) ≤ 30000000 ∧ (30000000 : U64) ≤ 1000000000 := by
  decide

theorem alpha_ordered : (1 : U64) ≤ 20 ∧ (20 : U64) ≤ 100 := by decide

theorem public_kRate_ordered : (1 : U64) ≤ 200 ∧ (200 : U64) ≤ 1000 := by decide

theorem other_kRate_ordered : (1 : U64) ≤ 200 ∧ (200 : U64) ≤ 10000 := by decide

theorem public_multiplier_ordered : (1 : U64) ≤ 5000 ∧ (5000 : U64) ≤ 9000 := by decide

theorem other_multiplier_ordered : (1 : U64) ≤ 5000 ∧ (5000 : U64) ≤ 10000 := by decide

theorem public_baseFee_ordered : (1 : U64) ≤ 20000000000000 := by decide

theorem other_baseFee_ordered : (1 : U64) ≤ 18446744073709551614 := by decide

def baseFeeConfigMainnet : BaseFeeConfig :=
  ⟨⟨1, 20, 100, alpha_ordered⟩, ⟨1, 200, 1000, public_kRate_ordered⟩,
    ⟨1, 5000, 9000, public_multiplier_ordered⟩, 1, 20000000000000, public_baseFee_ordered⟩

def baseFeeConfigTestnet : BaseFeeConfig :=
  ⟨⟨1, 20, 100, alpha_ordered⟩, ⟨1, 200, 1000, public_kRate_ordered⟩,
    ⟨1, 5000, 9000, public_multiplier_ordered⟩, 1, 20000000000000, public_baseFee_ordered⟩

def baseFeeConfigDefault : BaseFeeConfig :=
  ⟨⟨1, 20, 100, alpha_ordered⟩, ⟨1, 200, 10000, other_kRate_ordered⟩,
    ⟨1, 5000, 10000, other_multiplier_ordered⟩, 1, 18446744073709551614, other_baseFee_ordered⟩

namespace ArcChainSpec

variable (spec : ArcChainSpec)

/-- `block_gas_limit_config`, the same at every height. -/
def blockGasLimitConfig (_height : U64) : BlockGasLimitConfig :=
  if spec.chainId = mainnetChainId then ⟨10000000, 200000000, 30000000, public_gasLimit_ordered⟩
  else if spec.chainId = testnetChainId then
    ⟨10000000, 200000000, 30000000, public_gasLimit_ordered⟩
  else ⟨1000000, 1000000000, 30000000, other_gasLimit_ordered⟩

/-- `base_fee_config`, the same at every height. -/
def baseFeeConfig (_height : U64) : BaseFeeConfig :=
  if spec.chainId = mainnetChainId then baseFeeConfigMainnet
  else if spec.chainId = testnetChainId then baseFeeConfigTestnet
  else baseFeeConfigDefault

end ArcChainSpec

/-! ### The answer of ProtocolConfig -/

/-- The limit on chain where it fits the bounds, else the default. -/
def expectedGasLimit (feeParams : Option FeeParams) (config : BlockGasLimitConfig) : U64 :=
  ((feeParams.bind fun params => ofU256 params.blockGasLimit).filter fun gasLimit =>
    config.min ≤ gasLimit ∧ gasLimit ≤ config.max).getD config.default

/-- `determine_bounded_base_fee`: a range that is empty or starts at a zero maximum is ignored. -/
def determineBoundedBaseFee (params : FeeParams) (baseFee : U64) : U64 :=
  let configuredMax := (ofU256 params.maxBaseFee).getD (Fin.ofNat _ (2 ^ 64 - 1))
  let configuredMin := (ofU256 params.minBaseFee).getD (Fin.ofNat _ (2 ^ 64 - 1))
  if configuredMax = 0 ∨ configuredMax < configuredMin then baseFee
  else U64.clamp configuredMin configuredMax baseFee

/-! ### The gas values of a block -/

/-- What a block records for the next one. -/
structure GasValues where
  gasUsed : U64
  gasUsedSmoothed : U64
  nextBaseFee : U64
  deriving DecidableEq

/-- `compute_gas_values`, from the values of the parent block; `none` is a panic. -/
def computeGasValues (spec : ArcChainSpec) (blockNumber : U64) (feeParams : Option FeeParams)
    (parent : GasValues) (gasUsed gasLimit baseFee : U64) : Option GasValues :=
  (blockNumber.checkedAdd 1).bind fun next =>
    let config := spec.baseFeeConfig next
    let resolved := config.resolveCalcParams feeParams
    let smoothed :=
      (determineEmaParentGasUsed parent.gasUsedSmoothed gasUsed resolved.alpha).getD gasUsed
    (arcCalcNextBlockBaseFee smoothed gasLimit baseFee resolved.kRate
      resolved.inverseElasticityMultiplier).map fun raw =>
      let clamped := feeParams.elim raw fun params => determineBoundedBaseFee params raw
      ⟨gasUsed, smoothed, config.clampAbsolute clamped⟩

end ArcNode.Fees
