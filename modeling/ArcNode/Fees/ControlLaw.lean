/-
**The control law of the base fee.**

`arcCalcNextBlockBaseFee` never overflows nor divides by zero: it is one step of the proportional
controller of `ArcNode.Lib.Control`, at the gas target and with the divisor that the rate gives
(`arcCalcNextBlockBaseFee_eq`). With the parameters that a network resolves, the step is monotone,
rises above the target and does not rise below it, the smoothed gas lies between its two parts, and
the final fee respects every range (**`base_fee_control_law`**).

The divisor is rounded down before it divides, so that the fall can exceed the rate; at every fee it
stays within the rate exactly if there is nothing to round (**`fall_le_rate_iff`**).
-/

import Mathlib
import ArcNode.Fees.BaseFee

namespace ArcNode.Fees

open ArcNode.Lib ArcNode.Types ArcNode.Evm

/-! ### Numbers -/

theorem val_clamp (low high value : U64) :
    (U64.clamp low high value).val = within low.val high.val value.val := by
  rw [U64.clamp, U64.val_max, U64.val_min, within]

theorem val_ofU256_getD (value : U256) :
    ((ofU256 value).getD (Fin.ofNat _ (2 ^ 64 - 1))).val = min value.val (2 ^ 64 - 1) := by
  unfold ofU256
  split_ifs with small
  · show value.val % 2 ^ 64 = _
    rw [Nat.mod_eq_of_lt small]
    omega
  · show (2 ^ 64 - 1) % 2 ^ 64 = _
    omega

theorem val_ofNat_adjust (target divisor load : ℕ) (value : U64) :
    (Fin.ofNat (2 ^ 64) (adjust (2 ^ 64 - 1) target divisor load value.val)).val =
      adjust (2 ^ 64 - 1) target divisor load value.val :=
  Nat.mod_eq_of_lt (Nat.lt_of_le_pred (by decide) (adjust_le_cap value.val_le))

theorem mul128_of_lt {first second : ℕ} (small : first < 2 ^ 64) (small' : second < 2 ^ 64) :
    mul128 first second = some (first * second) := by
  unfold mul128
  rw [if_pos]
  calc first * second < 2 ^ 64 * 2 ^ 64 := Nat.mul_lt_mul'' small small'
    _ = 2 ^ 128 := by norm_num

theorem div128_of_ne_zero {divisor : ℕ} (nonzero : divisor ≠ 0) (dividend : ℕ) :
    div128 dividend divisor = some (dividend / divisor) := if_neg nonzero

/-! ### One step -/

section Step

variable (gasUsed gasLimit baseFee kRate multiplier : U64)

/-- The divisor of a step: how much gas away from the target would change the fee by all of it. -/
def feeDivisor : ℕ := (gasTarget gasLimit multiplier).val * fixedPointScale / kRate.val

/-- **The fee after a step**: unchanged without a target or a rate, else moved by the controller. -/
def steppedFee : U64 :=
  if gasTarget gasLimit multiplier = 0 ∨ kRate = 0 ∨ feeDivisor gasLimit kRate multiplier = 0 then
    baseFee
  else
    Fin.ofNat _ (adjust (2 ^ 64 - 1) (gasTarget gasLimit multiplier).val
      (feeDivisor gasLimit kRate multiplier) gasUsed.val baseFee.val)

theorem arcCalcNextBlockBaseFee_eq :
    arcCalcNextBlockBaseFee gasUsed gasLimit baseFee kRate multiplier =
      some (steppedFee gasUsed gasLimit baseFee kRate multiplier) := by
  have scaled := mul128_of_lt gasLimit.isLt multiplier.isLt
  unfold arcCalcNextBlockBaseFee steppedFee
  rw [scaled, Option.bind_some]
  dsimp only
  rw [show U64.ofNatSaturating (gasLimit.val * multiplier.val / fixedPointScale) =
    gasTarget gasLimit multiplier from rfl]
  unfold feeDivisor
  generalize gasTarget gasLimit multiplier = target
  by_cases idle : target = 0 ∨ kRate = 0
  · rw [if_pos idle, if_pos (by tauto)]
  obtain ⟨someTarget, someRate⟩ := not_or.mp idle
  have rate : kRate.val ≠ 0 := fun zero => someRate (Fin.ext zero)
  rw [if_neg idle, mul128_of_lt target.isLt (by decide), Option.bind_some, div128_of_ne_zero rate,
    Option.bind_some]
  by_cases flat : target.val * fixedPointScale / kRate.val = 0
  · rw [if_pos flat, if_pos (by tauto)]
  generalize target.val * fixedPointScale / kRate.val = divisor at flat ⊢
  have busy : ¬(target = 0 ∨ kRate = 0 ∨ divisor = 0) := by tauto
  rw [if_neg flat, if_neg busy]
  rcases lt_trichotomy gasUsed target with below | same | above
  · have far : target.val - gasUsed.val < 2 ^ 64 := lt_of_le_of_lt (Nat.sub_le _ _) target.isLt
    rw [if_neg below.ne, if_neg below.asymm, mul128_of_lt baseFee.isLt far, Option.bind_some,
      div128_of_ne_zero flat, Option.bind_some, Option.some.injEq]
    refine Fin.ext ?_
    rw [U64.val_saturatingSub, U64.val_ofNatSaturating, val_ofNat_adjust,
      adjust_of_lt (Fin.lt_def.mp below) baseFee.val_le]
    have small := baseFee.val_le
    omega
  · rw [if_pos same, Option.some.injEq]
    refine Fin.ext ?_
    rw [val_ofNat_adjust, adjust_of_eq (congrArg Fin.val same)]
  · have far : gasUsed.val - target.val < 2 ^ 64 := lt_of_le_of_lt (Nat.sub_le _ _) gasUsed.isLt
    rw [if_neg above.ne', if_pos above, mul128_of_lt baseFee.isLt far, Option.bind_some,
      div128_of_ne_zero flat, Option.bind_some, Option.some.injEq]
    refine Fin.ext ?_
    rw [U64.saturatingAdd, U64.val_ofNatSaturating, U64.val_max, U64.val_ofNatSaturating,
      val_ofNat_adjust, adjust_of_gt (Fin.lt_def.mp above)]
    rfl

variable {gasUsed gasLimit baseFee kRate multiplier}

theorem steppedFee_of_idle (idle : gasTarget gasLimit multiplier = 0 ∨ kRate = 0) :
    steppedFee gasUsed gasLimit baseFee kRate multiplier = baseFee :=
  if_pos (by tauto)

/-- Otherwise, if the rate is at most all of the fee, the step is one of the controller. -/
theorem steppedFee_of_busy (target : gasTarget gasLimit multiplier ≠ 0) (rate : kRate ≠ 0)
    (divides : feeDivisor gasLimit kRate multiplier ≠ 0) :
    (steppedFee gasUsed gasLimit baseFee kRate multiplier).val =
      adjust (2 ^ 64 - 1) (gasTarget gasLimit multiplier).val
        (feeDivisor gasLimit kRate multiplier) gasUsed.val baseFee.val := by
  rw [steppedFee, if_neg (by tauto), val_ofNat_adjust]

theorem gasTarget_le_feeDivisor (rate : kRate ≠ 0) (most : kRate.val ≤ fixedPointScale) :
    (gasTarget gasLimit multiplier).val ≤ feeDivisor gasLimit kRate multiplier := by
  have positive : 0 < kRate.val := Nat.pos_of_ne_zero fun zero => rate (Fin.ext zero)
  exact (Nat.le_div_iff_mul_le positive).mpr (Nat.mul_le_mul_left _ most)

theorem steppedFee_mono_gasUsed {gasUsed' : U64} (more : gasUsed ≤ gasUsed') :
    steppedFee gasUsed gasLimit baseFee kRate multiplier ≤
      steppedFee gasUsed' gasLimit baseFee kRate multiplier := by
  unfold steppedFee
  split_ifs with idle
  · exact le_rfl
  · rw [Fin.le_def, val_ofNat_adjust, val_ofNat_adjust]
    exact adjust_mono_load baseFee.val_le (Fin.le_def.mp more)

theorem steppedFee_mono_baseFee {baseFee' : U64} (more : baseFee ≤ baseFee') :
    steppedFee gasUsed gasLimit baseFee kRate multiplier ≤
      steppedFee gasUsed gasLimit baseFee' kRate multiplier := by
  unfold steppedFee
  split_ifs with idle
  · exact more
  · rw [Fin.le_def, val_ofNat_adjust, val_ofNat_adjust]
    exact adjust_mono_value (Fin.le_def.mp more) baseFee'.val_le

theorem steppedFee_le (below : gasUsed < gasTarget gasLimit multiplier) :
    steppedFee gasUsed gasLimit baseFee kRate multiplier ≤ baseFee := by
  unfold steppedFee
  split_ifs with idle
  · exact le_rfl
  · rw [Fin.le_def, val_ofNat_adjust]
    exact adjust_le (Fin.lt_def.mp below)

theorem steppedFee_of_eq (same : gasUsed = gasTarget gasLimit multiplier) :
    steppedFee gasUsed gasLimit baseFee kRate multiplier = baseFee := by
  unfold steppedFee
  split_ifs with idle
  · rfl
  · refine Fin.ext ?_
    rw [val_ofNat_adjust, adjust_of_eq (congrArg Fin.val same)]

/-- Above it the fee rises, with any rate from nothing to all of the fee. -/
theorem lt_steppedFee (target : gasTarget gasLimit multiplier ≠ 0) (rate : kRate ≠ 0)
    (most : kRate.val ≤ fixedPointScale) (above : gasTarget gasLimit multiplier < gasUsed) :
    baseFee.val + 1 ≤ (steppedFee gasUsed gasLimit baseFee kRate multiplier).val ∨
      (steppedFee gasUsed gasLimit baseFee kRate multiplier).val = 2 ^ 64 - 1 := by
  have some' : (gasTarget gasLimit multiplier).val ≠ 0 := fun zero => target (Fin.ext zero)
  have divides := @gasTarget_le_feeDivisor gasLimit kRate multiplier rate most
  rw [steppedFee_of_busy target rate (by omega)]
  exact lt_adjust (Fin.lt_def.mp above)

end Step

/-! ### The smoothed gas -/

/-- **The smoothed gas lies between its two parts**, with any weight up to the whole. -/
theorem determineEmaParentGasUsed_between {alpha : U64} (most : alpha.val ≤ alphaMax)
    (older newer : U64) :
    ∃ mean, determineEmaParentGasUsed older newer alpha = some mean ∧
      min older newer ≤ mean ∧ mean ≤ max older newer := by
  have older_lt := older.isLt
  have newer_lt := newer.isLt
  obtain ⟨above, below⟩ := smoothed_between (by decide) most older.val newer.val
  have left : mul128 (alphaMax - alpha.val) older.val = some ((alphaMax - alpha.val) * older.val) :=
    mul128_of_lt (by unfold alphaMax; omega) older_lt
  have right : mul128 alpha.val newer.val = some (alpha.val * newer.val) :=
    mul128_of_lt alpha.isLt newer_lt
  have together : add128 ((alphaMax - alpha.val) * older.val) (alpha.val * newer.val) =
      some ((alphaMax - alpha.val) * older.val + alpha.val * newer.val) := by
    have first : (alphaMax - alpha.val) * older.val ≤ alphaMax * 2 ^ 64 :=
      Nat.mul_le_mul (Nat.sub_le _ _) older_lt.le
    have second : alpha.val * newer.val ≤ alphaMax * 2 ^ 64 := Nat.mul_le_mul most newer_lt.le
    unfold alphaMax at first second
    exact if_pos (by unfold alphaMax; omega)
  have small : smoothed alphaMax alpha.val older.val newer.val < 2 ^ 64 :=
    lt_of_le_of_lt below (max_lt older_lt newer_lt)
  refine ⟨Fin.ofNat _ (smoothed alphaMax alpha.val older.val newer.val), ?_, ?_, ?_⟩
  · unfold determineEmaParentGasUsed
    rw [if_neg (by omega), left, Option.bind_some, right, Option.bind_some, together,
      Option.bind_some]
    exact if_pos small
  · rw [Fin.le_def, U64.val_min]
    exact above.trans_eq (Nat.mod_eq_of_lt small).symm
  · rw [Fin.le_def, U64.val_max]
    exact (Nat.mod_eq_of_lt small).trans_le below

/-! ### The parameters of a network -/

theorem BoundedParam.resolve_mem (param : BoundedParam U64) (onChain : U64) :
    param.min ≤ param.resolve onChain ∧ param.resolve onChain ≤ param.max := by
  unfold BoundedParam.resolve
  split_ifs with inside
  · exact inside
  · exact param.ordered

/-- Every network's ranges leave a weight up to the whole, a rate from nothing to all of the fee,
and a positive least fee. -/
theorem ArcChainSpec.baseFeeConfig_sane (spec : ArcChainSpec) (height : U64) :
    (spec.baseFeeConfig height).alpha.max.val ≤ alphaMax ∧
      0 < (spec.baseFeeConfig height).kRate.min.val ∧
      (spec.baseFeeConfig height).kRate.max.val ≤ fixedPointScale ∧
      0 < (spec.baseFeeConfig height).absoluteMinBaseFee.val := by
  unfold ArcChainSpec.baseFeeConfig
  split_ifs <;> decide

section Network

variable (spec : ArcChainSpec) (height : U64) (feeParams : Option FeeParams)

theorem resolved_alpha_le :
    ((spec.baseFeeConfig height).resolveCalcParams feeParams).alpha.val ≤ alphaMax := by
  have most := (spec.baseFeeConfig_sane height).1
  cases feeParams with
  | none => exact le_trans (Fin.le_def.mp (spec.baseFeeConfig height).alpha.ordered.2) most
  | some params =>
    exact le_trans (Fin.le_def.mp ((spec.baseFeeConfig height).alpha.resolve_mem _).2) most

theorem resolved_kRate_mem :
    0 < ((spec.baseFeeConfig height).resolveCalcParams feeParams).kRate.val ∧
      ((spec.baseFeeConfig height).resolveCalcParams feeParams).kRate.val ≤ fixedPointScale := by
  obtain ⟨-, least, most, -⟩ := spec.baseFeeConfig_sane height
  have inside : (spec.baseFeeConfig height).kRate.min ≤
        ((spec.baseFeeConfig height).resolveCalcParams feeParams).kRate ∧
      ((spec.baseFeeConfig height).resolveCalcParams feeParams).kRate ≤
        (spec.baseFeeConfig height).kRate.max := by
    cases feeParams with
    | none => exact (spec.baseFeeConfig height).kRate.ordered
    | some params => exact (spec.baseFeeConfig height).kRate.resolve_mem _
  exact ⟨least.trans_le (Fin.le_def.mp inside.1), (Fin.le_def.mp inside.2).trans most⟩

end Network

/-! ### The fee within its ranges -/

theorem clampAbsolute_mem (config : BaseFeeConfig) (baseFee : U64) :
    config.absoluteMinBaseFee ≤ config.clampAbsolute baseFee ∧
      config.clampAbsolute baseFee ≤ config.absoluteMaxBaseFee := by
  constructor
  · rw [Fin.le_def, BaseFeeConfig.clampAbsolute, val_clamp]
    exact low_le_within _ _ _
  · rw [Fin.le_def, BaseFeeConfig.clampAbsolute, val_clamp]
    exact within_le_high (Fin.le_def.mp config.ordered) _

/-- **A proper range that meets the absolute bounds is respected** by the two cuts together. -/
theorem clampAbsolute_determineBoundedBaseFee_mem {config : BaseFeeConfig} {params : FeeParams}
    (positive : 0 < config.absoluteMinBaseFee.val) (proper : params.minBaseFee ≤ params.maxBaseFee)
    (meets : params.minBaseFee.val ≤ config.absoluteMaxBaseFee.val)
    (meets' : config.absoluteMinBaseFee.val ≤ params.maxBaseFee.val) (baseFee : U64) :
    params.minBaseFee.val ≤ (config.clampAbsolute (determineBoundedBaseFee params baseFee)).val ∧
      (config.clampAbsolute (determineBoundedBaseFee params baseFee)).val ≤
        params.maxBaseFee.val := by
  have max_val := val_ofU256_getD params.maxBaseFee
  have min_val := val_ofU256_getD params.minBaseFee
  have highest := config.absoluteMaxBaseFee.val_le
  rw [Fin.le_def] at proper
  unfold determineBoundedBaseFee
  dsimp only
  generalize (ofU256 params.maxBaseFee).getD (Fin.ofNat _ (2 ^ 64 - 1)) = high at max_val ⊢
  generalize (ofU256 params.minBaseFee).getD (Fin.ofNat _ (2 ^ 64 - 1)) = low at min_val ⊢
  have used : ¬(high = 0 ∨ high < low) := by
    rintro (zero | empty)
    · have := congrArg Fin.val zero
      rw [max_val, Fin.val_zero] at this
      omega
    · rw [Fin.lt_def] at empty
      omega
  rw [if_neg used, BaseFeeConfig.clampAbsolute, val_clamp, val_clamp]
  obtain ⟨above, below⟩ := @within_within_mem low.val high.val config.absoluteMinBaseFee.val
    config.absoluteMaxBaseFee.val (by omega) (Fin.le_def.mp config.ordered) (by omega) (by omega)
    baseFee.val
  omega

/-! ### The control law -/

/-- What a fee that follows a target does, as a function of the gas used and the fee before. -/
structure Follows (target : U64) (next : U64 → U64 → U64) : Prop where
  mono_gasUsed : ∀ baseFee, Monotone fun gasUsed => next gasUsed baseFee
  mono_baseFee : ∀ gasUsed, Monotone (next gasUsed)
  rises : ∀ gasUsed baseFee, target ≠ 0 → target < gasUsed →
    baseFee.val + 1 ≤ (next gasUsed baseFee).val ∨ (next gasUsed baseFee).val = 2 ^ 64 - 1
  sinks : ∀ gasUsed baseFee, gasUsed < target → next gasUsed baseFee ≤ baseFee
  rests : ∀ gasUsed baseFee, gasUsed = target ∨ target = 0 → next gasUsed baseFee = baseFee

theorem follows_steppedFee {kRate : U64} (rate : 0 < kRate.val) (most : kRate.val ≤ fixedPointScale)
    (gasLimit multiplier : U64) :
    Follows (gasTarget gasLimit multiplier)
      fun gasUsed baseFee => steppedFee gasUsed gasLimit baseFee kRate multiplier where
  mono_gasUsed _ _ _ more := steppedFee_mono_gasUsed more
  mono_baseFee _ _ _ more := steppedFee_mono_baseFee more
  rises _ _ target above :=
    lt_steppedFee target (fun zero => rate.ne' (congrArg Fin.val zero)) most above
  sinks _ _ below := steppedFee_le below
  rests _ _ still := still.elim steppedFee_of_eq fun zero => steppedFee_of_idle (Or.inl zero)

/-- **The gas values of a block** exist at every height that has a next one. -/
theorem computeGasValues_eq {spec : ArcChainSpec} {blockNumber height : U64}
    (counts : blockNumber.checkedAdd 1 = some height) (feeParams : Option FeeParams)
    (parent : GasValues) (gasUsed gasLimit baseFee : U64) :
    let config := spec.baseFeeConfig height
    let resolved := config.resolveCalcParams feeParams
    ∃ values, computeGasValues spec blockNumber feeParams parent gasUsed gasLimit baseFee =
        some values ∧
      values.gasUsed = gasUsed ∧
      determineEmaParentGasUsed parent.gasUsedSmoothed gasUsed resolved.alpha =
        some values.gasUsedSmoothed ∧
      some values.nextBaseFee = (arcCalcNextBlockBaseFee values.gasUsedSmoothed gasLimit baseFee
        resolved.kRate resolved.inverseElasticityMultiplier).map fun raw => config.clampAbsolute
          (feeParams.elim raw fun params => determineBoundedBaseFee params raw) := by
  obtain ⟨mean, smooth, -⟩ := determineEmaParentGasUsed_between
    (resolved_alpha_le spec height feeParams) parent.gasUsedSmoothed gasUsed
  unfold computeGasValues
  rw [counts, Option.bind_some]
  dsimp only
  rw [smooth, Option.getD_some, arcCalcNextBlockBaseFee_eq]
  refine ⟨_, rfl, rfl, rfl, ?_⟩
  rw [arcCalcNextBlockBaseFee_eq]
  rfl

/-- **The control law.** With the parameters that a network resolves, whatever ProtocolConfig
answers: the step of the fee neither overflows nor divides by zero, and follows the target; the
smoothed gas lies between the smoothed gas before and the gas used; and the gas values of every
block exist, with the smoothed gas, and with the fee after a step at that gas, cut off to the
ranges: within the absolute bounds and within every proper range that meets them. -/
theorem base_fee_control_law (spec : ArcChainSpec) (height : U64) (feeParams : Option FeeParams)
    (gasLimit : U64) :
    let config := spec.baseFeeConfig height
    let resolved := config.resolveCalcParams feeParams
    (∃ next, Follows (gasTarget gasLimit resolved.inverseElasticityMultiplier) next ∧
      ∀ gasUsed baseFee, arcCalcNextBlockBaseFee gasUsed gasLimit baseFee resolved.kRate
        resolved.inverseElasticityMultiplier = some (next gasUsed baseFee)) ∧
    (∀ gasUsed baseFee multiplier,
      arcCalcNextBlockBaseFee gasUsed gasLimit baseFee 0 multiplier = some baseFee) ∧
    (∀ older newer, ∃ mean, determineEmaParentGasUsed older newer resolved.alpha = some mean ∧
      min older newer ≤ mean ∧ mean ≤ max older newer) ∧
    ∀ blockNumber, U64.checkedAdd blockNumber 1 = some height → ∀ parent gasUsed baseFee,
      ∃ values, computeGasValues spec blockNumber feeParams parent gasUsed gasLimit baseFee =
          some values ∧
        determineEmaParentGasUsed parent.gasUsedSmoothed gasUsed resolved.alpha =
          some values.gasUsedSmoothed ∧
        some values.nextBaseFee = (arcCalcNextBlockBaseFee values.gasUsedSmoothed gasLimit baseFee
          resolved.kRate resolved.inverseElasticityMultiplier).map (fun raw => config.clampAbsolute
            (feeParams.elim raw fun params => determineBoundedBaseFee params raw)) ∧
        config.absoluteMinBaseFee ≤ values.nextBaseFee ∧
        values.nextBaseFee ≤ config.absoluteMaxBaseFee ∧
        ∀ params, feeParams = some params → params.minBaseFee ≤ params.maxBaseFee →
          params.minBaseFee.val ≤ config.absoluteMaxBaseFee.val →
          config.absoluteMinBaseFee.val ≤ params.maxBaseFee.val →
          params.minBaseFee.val ≤ values.nextBaseFee.val ∧
            values.nextBaseFee.val ≤ params.maxBaseFee.val := by
  dsimp only
  obtain ⟨rate, most⟩ := resolved_kRate_mem spec height feeParams
  refine ⟨⟨_, follows_steppedFee rate most gasLimit _, fun gasUsed baseFee =>
    arcCalcNextBlockBaseFee_eq _ _ _ _ _⟩, fun gasUsed baseFee multiplier => ?_,
    determineEmaParentGasUsed_between (resolved_alpha_le spec height feeParams), ?_⟩
  · rw [arcCalcNextBlockBaseFee_eq, steppedFee_of_idle (Or.inr rfl)]
  · intro blockNumber counts parent gasUsed baseFee
    obtain ⟨values, computed, -, mean, fee⟩ :=
      @computeGasValues_eq spec _ _ counts feeParams parent gasUsed gasLimit baseFee
    obtain ⟨raw, -, cut⟩ := Option.map_eq_some_iff.mp fee.symm
    obtain ⟨above, below⟩ := clampAbsolute_mem (spec.baseFeeConfig height)
      (feeParams.elim raw fun params => determineBoundedBaseFee params raw)
    refine ⟨values, computed, mean, fee, cut ▸ above, cut ▸ below, ?_⟩
    rintro params rfl proper meets meets'
    rw [← cut]
    exact clampAbsolute_determineBoundedBaseFee_mem (spec.baseFeeConfig_sane height).2.2.2 proper
      meets meets' raw

/-! ### The fall of the fee -/

section Fall

variable {gasUsed gasLimit baseFee kRate multiplier : U64}

theorem le_steppedFee (most : gasTarget gasLimit multiplier ≤ gasUsed) :
    baseFee ≤ steppedFee gasUsed gasLimit baseFee kRate multiplier :=
  (steppedFee_of_eq rfl).ge.trans (steppedFee_mono_gasUsed most)

/-- **The fall below the target** is the fee times the distance over the divisor, rounded down. -/
theorem sub_steppedFee (rate : kRate ≠ 0) (most : kRate.val ≤ fixedPointScale)
    (below : gasUsed < gasTarget gasLimit multiplier) :
    baseFee.val - (steppedFee gasUsed gasLimit baseFee kRate multiplier).val =
      baseFee.val * ((gasTarget gasLimit multiplier).val - gasUsed.val) /
        feeDivisor gasLimit kRate multiplier := by
  have divides := @gasTarget_le_feeDivisor gasLimit kRate multiplier rate most
  rw [Fin.lt_def] at below
  have target : gasTarget gasLimit multiplier ≠ 0 := fun zero => by
    rw [zero, Fin.val_zero] at below
    omega
  rw [steppedFee_of_busy target rate (by omega), adjust_of_lt below baseFee.val_le]
  -- the distance is at most the divisor, so that no more than the whole fee is taken
  have share : baseFee.val * ((gasTarget gasLimit multiplier).val - gasUsed.val) /
      feeDivisor gasLimit kRate multiplier ≤ baseFee.val :=
    Nat.div_le_of_le_mul (by rw [Nat.mul_comm]; exact Nat.mul_le_mul_right _ (by omega))
  exact Nat.sub_sub_self share

/-- **Without a remainder the rate bounds the fall**, at every fee. -/
theorem fall_le_of_dvd {fee rate target used : ℕ} (divides : rate ∣ target * fixedPointScale) :
    fee * (target - used) / (target * fixedPointScale / rate) ≤
      (fee * rate) ⌈/⌉ fixedPointScale := by
  have whole := Nat.mul_div_cancel' divides
  have up : fee * rate ≤ fixedPointScale * ((fee * rate) ⌈/⌉ fixedPointScale) :=
    le_smul_ceilDiv (show 0 < fixedPointScale by decide)
  generalize target * fixedPointScale / rate = divisor at *
  generalize (fee * rate) ⌈/⌉ fixedPointScale = bound at *
  refine Nat.div_le_of_le_mul (le_of_mul_le_mul_left ?_ (by decide : 0 < fixedPointScale))
  calc fixedPointScale * (fee * (target - used))
      ≤ fixedPointScale * (fee * target) := by gcongr; omega
    _ = divisor * (fee * rate) := by linear_combination fee * whole.symm
    _ ≤ divisor * (fixedPointScale * bound) := Nat.mul_le_mul_left _ up
    _ = fixedPointScale * (divisor * bound) := by ring

/-- **With a remainder it does not**: at the greatest fee, an empty block falls by more. -/
theorem lt_fall_of_not_dvd {rate target : ℕ} (positive : 0 < target * fixedPointScale / rate)
    (small : 2 * fixedPointScale * (target * fixedPointScale) ≤ 2 ^ 64 - 1)
    (misses : ¬ rate ∣ target * fixedPointScale) :
    ((2 ^ 64 - 1) * rate) ⌈/⌉ fixedPointScale <
      (2 ^ 64 - 1) * target / (target * fixedPointScale / rate) := by
  have split := Nat.div_add_mod (target * fixedPointScale) rate
  have rest : 0 < target * fixedPointScale % rate :=
    Nat.pos_of_ne_zero fun zero => misses (Nat.dvd_of_mod_eq_zero zero)
  have most : target * fixedPointScale / rate ≤ target * fixedPointScale := Nat.div_le_self _ _
  have up : ((2 ^ 64 - 1) * rate) ⌈/⌉ fixedPointScale * fixedPointScale ≤
      (2 ^ 64 - 1) * rate + fixedPointScale - 1 := by
    rw [Nat.ceilDiv_eq_add_pred_div]
    exact Nat.div_mul_le_self _ _
  generalize 2 ^ 64 - 1 = fee at *
  generalize target * fixedPointScale / rate = divisor at *
  generalize target * fixedPointScale % rate = remainder at *
  generalize (fee * rate) ⌈/⌉ fixedPointScale = bound at *
  refine (Nat.le_div_iff_mul_le positive).mpr
    (le_of_mul_le_mul_left ?_ (by decide : 0 < fixedPointScale))
  calc fixedPointScale * ((bound + 1) * divisor)
      = (bound * fixedPointScale + fixedPointScale) * divisor := by ring
    _ ≤ (fee * rate + 2 * fixedPointScale) * divisor := Nat.mul_le_mul_right _ (by omega)
    _ = fee * (rate * divisor) + 2 * fixedPointScale * divisor := by ring
    _ ≤ fee * (rate * divisor) + fee * remainder := Nat.add_le_add_left
        ((Nat.mul_le_mul_left _ most).trans (small.trans (Nat.le_mul_of_pos_right _ rest))) _
    _ = fixedPointScale * (fee * target) := by linear_combination fee * split

end Fall

theorem gasTarget_le {spec : ArcChainSpec} {height gasLimit multiplier : U64}
    (limit : gasLimit ≤ (spec.blockGasLimitConfig height).max)
    (elastic : multiplier ≤ (spec.baseFeeConfig height).inverseElasticityMultiplier.max) :
    (gasTarget gasLimit multiplier).val ≤ 1000000000 := by
  have gas : gasLimit.val ≤ 1000000000 := (Fin.le_def.mp limit).trans (by
    unfold ArcChainSpec.blockGasLimitConfig
    split_ifs <;> decide)
  have whole : multiplier.val ≤ fixedPointScale := (Fin.le_def.mp elastic).trans (by
    unfold ArcChainSpec.baseFeeConfig
    split_ifs <;> decide)
  rw [gasTarget, U64.val_ofNatSaturating]
  exact (Nat.min_le_left _ _).trans ((Nat.div_le_of_le_mul ((Nat.mul_comm _ _).trans_le
    (Nat.mul_le_mul_right _ whole))).trans gas)

/-- **When the rate bounds the fall.** With the gas limit, the rate and the multiplier within the
ranges of a network: the fall of every base fee, at every gas used, is at most the rate, rounded up,
exactly if the rate divides `target * 10000`, so that the divisor is not rounded. -/
theorem fall_le_rate_iff (spec : ArcChainSpec) (height gasLimit kRate multiplier : U64)
    (limit : gasLimit ≤ (spec.blockGasLimitConfig height).max)
    (rate : (spec.baseFeeConfig height).kRate.min ≤ kRate ∧
      kRate ≤ (spec.baseFeeConfig height).kRate.max)
    (elastic : multiplier ≤ (spec.baseFeeConfig height).inverseElasticityMultiplier.max) :
    (∀ baseFee gasUsed, ∃ next,
      arcCalcNextBlockBaseFee gasUsed gasLimit baseFee kRate multiplier = some next ∧
        baseFee.val - next.val ≤ (baseFee.val * kRate.val) ⌈/⌉ fixedPointScale) ↔
      kRate.val ∣ (gasTarget gasLimit multiplier).val * fixedPointScale := by
  obtain ⟨-, least, most, -⟩ := spec.baseFeeConfig_sane height
  have nonzero : kRate ≠ 0 := fun zero =>
    (least.trans_le (Fin.le_def.mp rate.1)).ne' (congrArg Fin.val zero)
  have bounded : kRate.val ≤ fixedPointScale := (Fin.le_def.mp rate.2).trans most
  have divides := @gasTarget_le_feeDivisor gasLimit kRate multiplier nonzero bounded
  constructor
  · intro all
    by_contra misses
    have below : 0 < gasTarget gasLimit multiplier := Fin.pos_iff_ne_zero.mpr fun zero =>
      misses (by rw [zero]; exact ⟨0, by simp⟩)
    have target := Fin.lt_def.mp below
    have small := gasTarget_le limit elastic
    obtain ⟨next, stepped, falls⟩ := all (Fin.last _) 0
    rw [arcCalcNextBlockBaseFee_eq] at stepped
    rw [← Option.some.inj stepped, sub_steppedFee nonzero bounded below] at falls
    exact absurd falls (not_le.mpr (lt_fall_of_not_dvd (target.trans_le divides)
      (by unfold fixedPointScale; omega) misses))
  · intro whole baseFee gasUsed
    refine ⟨_, arcCalcNextBlockBaseFee_eq _ _ _ _ _, ?_⟩
    rcases le_or_gt (gasTarget gasLimit multiplier) gasUsed with above | below
    · have kept := Fin.le_def.mp (@le_steppedFee gasUsed gasLimit baseFee kRate multiplier above)
      rw [Nat.sub_eq_zero_of_le kept]
      exact Nat.zero_le _
    · rw [sub_steppedFee nonzero bounded below]
      exact fall_le_of_dvd whole

def mainnetSpec : ArcChainSpec := ⟨mainnetChainId, fun _ _ => default⟩

/-- The default rate divides the default target, and an empty block falls by no more than the
rate. -/
theorem fall_le_rate_iff_default : (200 ∣ (gasTarget 30000000 5000).val * fixedPointScale) ∧
    ∃ next, arcCalcNextBlockBaseFee 0 30000000 20000000000000 200 5000 = some next ∧
      20000000000000 - next.val ≤ (20000000000000 * 200) ⌈/⌉ fixedPointScale :=
  ⟨by decide, (fall_le_rate_iff mainnetSpec 1 30000000 200 5000 (by decide) (by decide)
    (by decide)).mpr (by decide) 20000000000000 0⟩

/-- **The fall can exceed the rate.** An empty block of mainnet, with the default gas limit and
target and a rate of 700 basis points, at the greatest base fee: the fee falls by more than that
share. -/
theorem fall_exceeds_rate :
    let config := mainnetSpec.baseFeeConfig 1
    ((mainnetSpec.blockGasLimitConfig 1).min ≤ (30000000 : U64) ∧
      (30000000 : U64) ≤ (mainnetSpec.blockGasLimitConfig 1).max) ∧
    (config.kRate.min ≤ 700 ∧ (700 : U64) ≤ config.kRate.max) ∧
    (config.inverseElasticityMultiplier.min ≤ 5000 ∧
      (5000 : U64) ≤ config.inverseElasticityMultiplier.max) ∧
    ∃ next, arcCalcNextBlockBaseFee 0 30000000 20000000000000 700 5000 = some next ∧
      (20000000000000 * 700) ⌈/⌉ fixedPointScale < 20000000000000 - next.val := by
  refine ⟨by decide, by decide, by decide, 18599999998134, by decide +kernel, by decide +kernel⟩

end ArcNode.Fees
