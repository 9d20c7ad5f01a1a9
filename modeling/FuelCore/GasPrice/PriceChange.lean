import FuelCore.GasPrice.Projection

/-! # How far and which way the gas prices move

`update_exec_gas_price` and `update_da_gas_price` of `fuel-gas-price-algorithm/src/v1.rs`.
The DA price moves by the PD change: the negated profit over `da_p_component` plus the negated
slope of the profit over `da_d_component`, scaled by the gas price factor, its size clamped by
`max_change` and its sign kept, overridden outside the normal range of activity, added to the
old price as an `i128` and brought back to a `u64` before the clamp into the bounds.

The lemmas on the updater bound each stage. A call is then described once by `run_cases`: an
empty DA record changes nothing, and every other successful call prices DA from an updater with
the old price and configuration. The bounds, the step sizes and the sign table of the
controller follow from that description alone.
-/

namespace FuelCore.GasPrice

open Saturating

namespace AlgorithmUpdaterV1

variable (updater : AlgorithmUpdaterV1)

theorem maxChange_nonneg : 0 ≤ updater.maxChange := Int.natCast_nonneg _

/-- The saturating product only lowers the bound: the change is at most the percentage of the
price, rounded down. -/
theorem maxChange_le :
    updater.maxChange ≤
      (updater.newScaledDaGasPrice.toNat * updater.maxDaGasPriceChangePercent.toNat / 100 : ℕ) := by
  unfold maxChange
  rw [UInt64.toNat_div, UInt64.toNat_saturatingMul, UInt16.toNat_toUInt64]
  have capped := Nat.div_le_div_right (c := 100) (min_le_left
    (updater.newScaledDaGasPrice.toNat * updater.maxDaGasPriceChangePercent.toNat) (UInt64.size - 1))
  exact_mod_cast capped

theorem maxChange_lt : updater.maxChange < 2 ^ 64 := by
  unfold maxChange
  have := UInt64.toNat_lt ((updater.newScaledDaGasPrice.saturatingMul
    updater.maxDaGasPriceChangePercent.toUInt64) / 100)
  exact_mod_cast this

/-- The change is at most the largest change either way: its size is clamped by it, and then
its sign put back. -/
theorem daChange_bounded (p d : ℤ) :
    -updater.maxChange ≤ updater.daChange p d ∧ updater.daChange p d ≤ updater.maxChange := by
  have sizeNonneg := iabs_nonneg 128 (imul 128 (iadd 128 p d) updater.gasPriceFactor.get.toNat)
  have changeNonneg := updater.maxChange_nonneg
  have changeBelow := updater.maxChange_lt
  unfold daChange
  generalize imul 128 (iadd 128 p d) updater.gasPriceFactor.get.toNat = scaled at *
  rcases Int.sign_trichotomy scaled with sign | sign | sign <;>
    simp only [sign, imul, clamp, signedMin, signedMax] <;> omega

theorem daChangeAccountingForActivity_bounded {change : ℤ}
    (bounded : -updater.maxChange ≤ change ∧ change ≤ updater.maxChange) :
    -updater.maxChange ≤ updater.daChangeAccountingForActivity change ∧
      updater.daChangeAccountingForActivity change ≤ updater.maxChange := by
  have changeNonneg := updater.maxChange_nonneg
  have changeBelow := updater.maxChange_lt
  unfold daChangeAccountingForActivity
  split_ifs
  · cases updater.l2Activity.safetyMode <;> simp only [imul, clamp, signedMin, signedMax] <;> omega
  · exact bounded

theorem daChangeAccountingForActivity_of_normal {change : ℤ}
    (normal : updater.l2Activity.safetyMode = .normal) :
    updater.daChangeAccountingForActivity change = change := by
  unfold daChangeAccountingForActivity
  split_ifs <;> simp only [normal]

theorem daChangeAccountingForActivity_nonpos {change : ℤ}
    (falling : change ≤ 0 ∨ updater.l2Activity.safetyMode ≠ .normal) :
    updater.daChangeAccountingForActivity change ≤ 0 := by
  have changeNonneg := updater.maxChange_nonneg
  unfold daChangeAccountingForActivity
  split_ifs with rising
  · cases mode : updater.l2Activity.safetyMode
    · simp only [mode, ne_eq, not_true_eq_false, or_false] at falling
      omega
    · exact Int.le_refl 0
    · exact clamp_nonpos (by omega)
  · omega

theorem p_nonpos (positive : 0 < updater.daPComponent.toInt) (profit : 0 ≤ updater.lastProfit) :
    updater.p ≤ 0 := by
  have quotient := Int.tdiv_nonneg profit (Int.le_of_lt positive)
  unfold p
  dsimp only
  rw [icheckedDiv_of_pos positive, Option.getD_some, imul]
  exact clamp_nonpos (by omega)

theorem p_nonneg (positive : 0 < updater.daPComponent.toInt) (loss : updater.lastProfit ≤ 0) :
    0 ≤ updater.p := by
  have quotient := Int.tdiv_nonneg (Int.neg_nonneg_of_nonpos loss) (Int.le_of_lt positive)
  rw [Int.neg_tdiv] at quotient
  unfold p
  dsimp only
  rw [icheckedDiv_of_pos positive, Option.getD_some, imul]
  exact clamp_nonneg (by omega)

theorem d_nonpos (positive : 0 < updater.daDComponent.toInt)
    (rising : updater.secondToLastProfit ≤ updater.lastProfit) : updater.d ≤ 0 := by
  have slope : 0 ≤ isub 128 updater.lastProfit updater.secondToLastProfit :=
    clamp_nonneg (by omega)
  have quotient := Int.tdiv_nonneg slope (Int.le_of_lt positive)
  unfold d
  dsimp only
  rw [icheckedDiv_of_pos positive, Option.getD_some, imul]
  exact clamp_nonpos (by omega)

theorem d_nonneg (positive : 0 < updater.daDComponent.toInt)
    (falling : updater.lastProfit ≤ updater.secondToLastProfit) : 0 ≤ updater.d := by
  have slope : isub 128 updater.lastProfit updater.secondToLastProfit ≤ 0 :=
    clamp_nonpos (by omega)
  have quotient := Int.tdiv_nonneg (Int.neg_nonneg_of_nonpos slope) (Int.le_of_lt positive)
  rw [Int.neg_tdiv] at quotient
  unfold d
  dsimp only
  rw [icheckedDiv_of_pos positive, Option.getD_some, imul]
  exact clamp_nonneg (by omega)

theorem daChange_nonpos {p d : ℤ} (nonpos : p + d ≤ 0) : updater.daChange p d ≤ 0 := by
  have scaled : imul 128 (iadd 128 p d) updater.gasPriceFactor.get.toNat ≤ 0 :=
    clamp_nonpos (Int.mul_nonpos_of_nonpos_of_nonneg (clamp_nonpos nonpos) (Int.natCast_nonneg _))
  have size : 0 ≤ min (iabs 128 (imul 128 (iadd 128 p d) updater.gasPriceFactor.get.toNat))
      updater.maxChange := by
    have sizeNonneg := iabs_nonneg 128 (imul 128 (iadd 128 p d) updater.gasPriceFactor.get.toNat)
    have changeNonneg := updater.maxChange_nonneg
    omega
  unfold daChange
  exact clamp_nonpos (Int.mul_nonpos_of_nonpos_of_nonneg (Int.sign_nonpos_iff.mpr scaled) size)

theorem daChange_nonneg {p d : ℤ} (nonneg : 0 ≤ p + d) : 0 ≤ updater.daChange p d := by
  have scaled : 0 ≤ imul 128 (iadd 128 p d) updater.gasPriceFactor.get.toNat :=
    clamp_nonneg (Int.mul_nonneg (clamp_nonneg nonneg) (Int.natCast_nonneg _))
  have size : 0 ≤ min (iabs 128 (imul 128 (iadd 128 p d) updater.gasPriceFactor.get.toNat))
      updater.maxChange := by
    have sizeNonneg := iabs_nonneg 128 (imul 128 (iadd 128 p d) updater.gasPriceFactor.get.toNat)
    have changeNonneg := updater.maxChange_nonneg
    omega
  unfold daChange
  exact clamp_nonneg (Int.mul_nonneg (Int.sign_nonneg_iff.mpr scaled) size)

/-- `i128::checked_add` of a `u64` and a change, then `u64::try_from`: it succeeds exactly when
the sum is a `u64`. -/
theorem checkedAdd_toU64_eq_some {x : ℕ} {change : ℤ} {price : ℕ} :
    (icheckedAdd 128 x change).bind (toUnsigned? 64) = some price ↔
      0 ≤ x + change ∧ x + change < 2 ^ 64 ∧ (price : ℤ) = x + change := by
  have signedLow : signedMin 128 = -2 ^ 127 := rfl
  have signedHigh : signedMax 128 = 2 ^ 127 - 1 := rfl
  have unsignedHigh : unsignedMax 64 = 2 ^ 64 - 1 := rfl
  unfold icheckedAdd toUnsigned?
  split_ifs with inRange
  · simp only [Option.bind_some]
    split_ifs with fits
    · simp only [Option.some.injEq]
      omega
    · simp only [false_iff]
      omega
  · simp only [Option.bind_none, reduceCtorEq, false_iff]
    omega

theorem minScaledDaGasPrice_le_max :
    updater.minScaledDaGasPrice ≤ updater.maxScaledDaGasPrice := by
  have larger := Nat.mul_le_mul_right updater.gasPriceFactor.get.toNat
    (Nat.le_max_right updater.maxDaGasPrice.toNat updater.minDaGasPrice.toNat)
  unfold minScaledDaGasPrice maxScaledDaGasPrice
  rw [UInt64.le_iff_toNat_le, UInt64.toNat_saturatingMul, UInt64.toNat_saturatingMul,
    UInt64.toNat_max]
  omega

theorem updateDaGasPrice_mem :
    updater.minScaledDaGasPrice ≤ updater.updateDaGasPrice.newScaledDaGasPrice ∧
      updater.updateDaGasPrice.newScaledDaGasPrice ≤ updater.maxScaledDaGasPrice := by
  have ordered := UInt64.le_iff_toNat_le.mp updater.minScaledDaGasPrice_le_max
  unfold updateDaGasPrice
  dsimp only
  rw [UInt64.le_iff_toNat_le, UInt64.le_iff_toNat_le, UInt64.toNat_min, UInt64.toNat_max]
  omega

/-- From a price within the bounds, the new DA price lies between the old price and the old
price moved by the change: the conversion to `u64` and the clamp only pull it back toward
the old price. -/
theorem updateDaGasPrice_between
    (low : updater.minScaledDaGasPrice ≤ updater.newScaledDaGasPrice)
    (high : updater.newScaledDaGasPrice ≤ updater.maxScaledDaGasPrice) :
    min (updater.newScaledDaGasPrice.toNat : ℤ) (updater.newScaledDaGasPrice.toNat +
        updater.daChangeAccountingForActivity (updater.daChange updater.p updater.d)) ≤
        updater.updateDaGasPrice.newScaledDaGasPrice.toNat ∧
      (updater.updateDaGasPrice.newScaledDaGasPrice.toNat : ℤ) ≤
        max (updater.newScaledDaGasPrice.toNat : ℤ) (updater.newScaledDaGasPrice.toNat +
          updater.daChangeAccountingForActivity (updater.daChange updater.p updater.d)) := by
  have priceBelow := updater.newScaledDaGasPrice.toNat_lt
  rw [UInt64.le_iff_toNat_le] at low high
  unfold updateDaGasPrice
  dsimp only
  generalize updater.daChangeAccountingForActivity (updater.daChange updater.p updater.d) = change
  rw [UInt64.toNat_min, UInt64.toNat_max]
  split
  · rename_i price converted
    obtain ⟨-, fits, sum⟩ := checkedAdd_toU64_eq_some.mp converted
    have exact : price.toUInt64.toNat = price := by
      rw [Nat.toUInt64_eq, UInt64.toNat_ofNat', Nat.mod_eq_of_lt (by omega)]
    rw [exact]
    omega
  · -- out of range: the sum saturates at the side it left
    rename_i failed
    have outside : updater.newScaledDaGasPrice.toNat + change < 0 ∨
        2 ^ 64 ≤ updater.newScaledDaGasPrice.toNat + change := by
      by_contra inside
      have converts := @checkedAdd_toU64_eq_some updater.newScaledDaGasPrice.toNat change
        (updater.newScaledDaGasPrice.toNat + change).toNat
      rw [failed] at converts
      simp only [reduceCtorEq, false_iff, not_and] at converts
      omega
    split_ifs with rising
    · rw [UInt64.toNat_ofNat']
      have sizeEq : UInt64.size = 2 ^ 64 := rfl
      omega
    · rw [UInt64.toNat_zero]
      omega

theorem execChange_le (principle : UInt64) :
    (updater.execChange principle).toNat ≤
      principle.toNat * updater.execGasPriceChangePercent.toNat / 100 := by
  unfold execChange
  rw [UInt64.toNat_div, UInt64.toNat_saturatingMul, UInt16.toNat_toUInt64]
  exact Nat.div_le_div_right (min_le_left _ _)

theorem le_updateExecGasPrice (used : UInt64) (capacity : NonZeroU64) :
    updater.minScaledExecGasPrice ≤ (updater.updateExecGasPrice used capacity).newScaledExecPrice := by
  unfold updateExecGasPrice
  dsimp only
  rw [UInt64.le_iff_toNat_le, UInt64.toNat_max]
  omega

theorem updateExecGasPrice_step (used : UInt64) (capacity : NonZeroU64)
    (moved : (updater.updateExecGasPrice used capacity).newScaledExecPrice ≠
      updater.minScaledExecGasPrice) :
    (updater.updateExecGasPrice used capacity).newScaledExecPrice.toNat ≤
        updater.newScaledExecPrice.toNat +
          updater.newScaledExecPrice.toNat * updater.execGasPriceChangePercent.toNat / 100 ∧
      updater.newScaledExecPrice.toNat ≤
        (updater.updateExecGasPrice used capacity).newScaledExecPrice.toNat +
          updater.newScaledExecPrice.toNat * updater.execGasPriceChangePercent.toNat / 100 := by
  have change := updater.execChange_le updater.newScaledExecPrice
  have priceBelow := updater.newScaledExecPrice.toNat_lt
  unfold updateExecGasPrice at moved ⊢
  dsimp only at moved ⊢
  rw [Ne, ← UInt64.toNat_inj, UInt64.toNat_max] at moved
  rw [UInt64.toNat_max]
  split_ifs at moved ⊢ with full
  · rw [UInt64.toNat_saturatingAdd] at moved ⊢
    have sizeEq : UInt64.size = 2 ^ 64 := rfl
    omega
  · rw [UInt64.toNat_saturatingSub] at moved ⊢
    omega

theorem updateDaGasPrice_step
    (low : updater.minScaledDaGasPrice ≤ updater.newScaledDaGasPrice)
    (high : updater.newScaledDaGasPrice ≤ updater.maxScaledDaGasPrice) :
    updater.updateDaGasPrice.newScaledDaGasPrice.toNat ≤ updater.newScaledDaGasPrice.toNat +
        updater.newScaledDaGasPrice.toNat * updater.maxDaGasPriceChangePercent.toNat / 100 ∧
      updater.newScaledDaGasPrice.toNat ≤ updater.updateDaGasPrice.newScaledDaGasPrice.toNat +
        updater.newScaledDaGasPrice.toNat * updater.maxDaGasPriceChangePercent.toNat / 100 := by
  have between := updater.updateDaGasPrice_between low high
  have bounded := updater.daChangeAccountingForActivity_bounded (updater.daChange_bounded updater.p updater.d)
  have limit := updater.maxChange_le
  omega

theorem updateDaGasPrice_le_of_falling
    (low : updater.minScaledDaGasPrice ≤ updater.newScaledDaGasPrice)
    (high : updater.newScaledDaGasPrice ≤ updater.maxScaledDaGasPrice)
    (pPositive : 0 < updater.daPComponent.toInt) (dPositive : 0 < updater.daDComponent.toInt)
    (falling : (0 ≤ updater.lastProfit ∧ updater.secondToLastProfit ≤ updater.lastProfit) ∨
      updater.l2Activity.safetyMode ≠ .normal) :
    updater.updateDaGasPrice.newScaledDaGasPrice ≤ updater.newScaledDaGasPrice := by
  have change : updater.daChangeAccountingForActivity (updater.daChange updater.p updater.d) ≤ 0 := by
    apply updater.daChangeAccountingForActivity_nonpos
    rcases falling with ⟨profit, rising⟩ | abnormal
    · have pNonpos := updater.p_nonpos pPositive profit
      have dNonpos := updater.d_nonpos dPositive rising
      exact .inl (updater.daChange_nonpos (by omega))
    · exact .inr abnormal
  have between := (updater.updateDaGasPrice_between low high).2
  rw [UInt64.le_iff_toNat_le]
  omega

theorem le_updateDaGasPrice_of_rising
    (low : updater.minScaledDaGasPrice ≤ updater.newScaledDaGasPrice)
    (high : updater.newScaledDaGasPrice ≤ updater.maxScaledDaGasPrice)
    (pPositive : 0 < updater.daPComponent.toInt) (dPositive : 0 < updater.daDComponent.toInt)
    (loss : updater.lastProfit ≤ 0) (falling : updater.lastProfit ≤ updater.secondToLastProfit)
    (normal : updater.l2Activity.safetyMode = .normal) :
    updater.newScaledDaGasPrice ≤ updater.updateDaGasPrice.newScaledDaGasPrice := by
  have pNonneg := updater.p_nonneg pPositive loss
  have dNonneg := updater.d_nonneg dPositive falling
  have change := updater.daChange_nonneg (p := updater.p) (d := updater.d) (by omega)
  have between := (updater.updateDaGasPrice_between low high).1
  rw [updater.daChangeAccountingForActivity_of_normal normal] at between
  rw [UInt64.le_iff_toNat_le]
  omega

end AlgorithmUpdaterV1

/-- The configuration of the updater, which no call changes. -/
structure SameConfig (updater other : AlgorithmUpdaterV1) : Prop where
  minExecGasPrice : other.minExecGasPrice = updater.minExecGasPrice
  execGasPriceChangePercent : other.execGasPriceChangePercent = updater.execGasPriceChangePercent
  gasPriceFactor : other.gasPriceFactor = updater.gasPriceFactor
  minDaGasPrice : other.minDaGasPrice = updater.minDaGasPrice
  maxDaGasPrice : other.maxDaGasPrice = updater.maxDaGasPrice
  maxDaGasPriceChangePercent : other.maxDaGasPriceChangePercent = updater.maxDaGasPriceChangePercent
  daPComponent : other.daPComponent = updater.daPComponent
  daDComponent : other.daDComponent = updater.daDComponent

namespace SameConfig

variable {updater other : AlgorithmUpdaterV1}

theorem minScaledExecGasPrice_eq (same : SameConfig updater other) :
    other.minScaledExecGasPrice = updater.minScaledExecGasPrice := by
  unfold AlgorithmUpdaterV1.minScaledExecGasPrice
  rw [same.minExecGasPrice, same.gasPriceFactor]

theorem minScaledDaGasPrice_eq (same : SameConfig updater other) :
    other.minScaledDaGasPrice = updater.minScaledDaGasPrice := by
  unfold AlgorithmUpdaterV1.minScaledDaGasPrice
  rw [same.minDaGasPrice, same.gasPriceFactor]

theorem maxScaledDaGasPrice_eq (same : SameConfig updater other) :
    other.maxScaledDaGasPrice = updater.maxScaledDaGasPrice := by
  unfold AlgorithmUpdaterV1.maxScaledDaGasPrice
  rw [same.minDaGasPrice, same.maxDaGasPrice, same.gasPriceFactor]

end SameConfig

/-- `updated` took its DA price from `priced.updateDaGasPrice`, where `priced` has the DA price
and the configuration of `updater`, and the profits, the activity and the execution price
`updated` ends with. -/
structure DaPricedFrom (updater priced updated : AlgorithmUpdaterV1) : Prop where
  config : SameConfig updater priced
  price : priced.newScaledDaGasPrice = updater.newScaledDaGasPrice
  newPrice : updated.newScaledDaGasPrice = priced.updateDaGasPrice.newScaledDaGasPrice
  lastProfit : updated.lastProfit = priced.lastProfit
  secondToLastProfit : updated.secondToLastProfit = priced.secondToLastProfit
  l2Activity : updated.l2Activity = priced.l2Activity
  execPrice : updated.newScaledExecPrice = priced.newScaledExecPrice

namespace UpdaterCall

variable {updater : AlgorithmUpdaterV1} {unrecordedBlocks : UnrecordedBlocks}

theorem run_sameConfig (call : UpdaterCall) :
    SameConfig updater (call.run updater unrecordedBlocks).updater := by
  cases call with
  | l2BlockData height used capacity blockBytes feeWei =>
      simp only [run]
      unfold AlgorithmUpdaterV1.updateL2BlockData
      by_cases expected : height = updater.l2BlockHeight.saturatingAdd 1
      · rw [if_neg (not_not.mpr expected)]
        exact ⟨rfl, rfl, rfl, rfl, rfl, rfl, rfl, rfl⟩
      · rw [if_pos expected]
        exact ⟨rfl, rfl, rfl, rfl, rfl, rfl, rfl, rfl⟩
  | daRecordData heights recordedBytes recordingCost =>
      simp only [run]
      unfold AlgorithmUpdaterV1.updateDaRecordData AlgorithmUpdaterV1.daBlockUpdate
      by_cases empty : heights.isEmpty = true
      · rw [if_pos empty]
        exact ⟨rfl, rfl, rfl, rfl, rfl, rfl, rfl, rfl⟩
      · by_cases recorded : recordedBytes.toNat = 0
        · simp only [empty, recorded, Bool.false_eq_true, if_false, if_true, updateUnrecordedBlockBytes_eq]
          exact ⟨rfl, rfl, rfl, rfl, rfl, rfl, rfl, rfl⟩
        · simp only [empty, recorded, Bool.false_eq_true, if_false, updateUnrecordedBlockBytes_eq]
          exact ⟨rfl, rfl, rfl, rfl, rfl, rfl, rfl, rfl⟩

/-- What a successful call does to the prices: an empty DA record changes nothing; a DA record
prices DA from the updater with the record taken in and keeps the execution price; an L2 block
prices execution from an updater with the configuration and the execution price of the old
one, then DA from the result. -/
theorem run_cases {call : UpdaterCall}
    (succeeds : (call.run updater unrecordedBlocks).result = .ok ()) :
    (call.run updater unrecordedBlocks).updater = updater ∨
      (∃ priced, DaPricedFrom updater priced (call.run updater unrecordedBlocks).updater ∧
        priced.newScaledExecPrice = updater.newScaledExecPrice) ∨
      ∃ active used capacity, SameConfig updater active ∧
        active.newScaledExecPrice = updater.newScaledExecPrice ∧
        DaPricedFrom updater (active.updateExecGasPrice used capacity)
          (call.run updater unrecordedBlocks).updater := by
  cases call with
  | l2BlockData height used capacity blockBytes feeWei =>
      simp only [run] at succeeds ⊢
      have expected : height = updater.l2BlockHeight.saturatingAdd 1 := by
        by_contra unexpected
        rw [updateL2BlockData_of_unexpected used capacity blockBytes feeWei unexpected] at succeeds
        cases succeeds
      right; right
      unfold AlgorithmUpdaterV1.updateL2BlockData
      rw [if_neg (not_not.mpr expected)]
      let rewarded := { updater with l2BlockHeight := height }.updateDaRewards feeWei
      let projected := rewarded.updateProjectedDaCost blockBytes
      let profited := projected.updateLastProfit
        (isub 128 rewarded.clampedRewardsAsI128 projected.clampedProjectedCostAsI128)
      refine ⟨profited.updateActivity used capacity, used, capacity,
        ⟨rfl, rfl, rfl, rfl, rfl, rfl, rfl, rfl⟩, rfl,
        ⟨rfl, rfl, rfl, rfl, rfl, rfl, rfl, rfl⟩, ?_, ?_, ?_, ?_, ?_, ?_⟩ <;> rfl
  | daRecordData heights recordedBytes recordingCost =>
      simp only [run] at succeeds ⊢
      by_cases empty : heights.isEmpty = true
      · left
        rw [updateDaRecordData_of_empty recordedBytes recordingCost empty]
      right; left
      have recorded : recordedBytes.toNat ≠ 0 := by
        intro zero
        rw [UInt32.toNat_inj.mp (zero.trans UInt32.toNat_zero.symm), updateDaRecordData_of_zero
          recordingCost (Bool.not_eq_true _ ▸ empty)] at succeeds
        cases succeeds
      unfold AlgorithmUpdaterV1.updateDaRecordData AlgorithmUpdaterV1.daBlockUpdate
      simp only [empty, recorded, Bool.false_eq_true, if_false, updateUnrecordedBlockBytes_eq]
      refine ⟨{ updater with
          unrecordedBlocksBytes := updater.unrecordedBlocksBytes -
            (heights.toList.foldl removeUnrecorded (0, unrecordedBlocks)).1
          latestKnownTotalDaCost := add 128 updater.latestKnownTotalDaCost recordingCost
          latestDaCostPerByte := recordingCost / recordedBytes.toNat }.recalculateProjectedCost,
        ⟨⟨rfl, rfl, rfl, rfl, rfl, rfl, rfl, rfl⟩, ?_, ?_, ?_, ?_, ?_, ?_⟩, ?_⟩ <;> rfl

end UpdaterCall

namespace DaPricedFrom

variable {updater priced updated : AlgorithmUpdaterV1}

theorem mem (origin : DaPricedFrom updater priced updated) :
    updater.minScaledDaGasPrice ≤ updated.newScaledDaGasPrice ∧
      updated.newScaledDaGasPrice ≤ updater.maxScaledDaGasPrice := by
  rw [origin.newPrice, ← origin.config.minScaledDaGasPrice_eq,
    ← origin.config.maxScaledDaGasPrice_eq]
  exact priced.updateDaGasPrice_mem

theorem pricedLow (origin : DaPricedFrom updater priced updated)
    (low : updater.minScaledDaGasPrice ≤ updater.newScaledDaGasPrice) :
    priced.minScaledDaGasPrice ≤ priced.newScaledDaGasPrice := by
  rw [origin.price, origin.config.minScaledDaGasPrice_eq]
  exact low

theorem pricedHigh (origin : DaPricedFrom updater priced updated)
    (high : updater.newScaledDaGasPrice ≤ updater.maxScaledDaGasPrice) :
    priced.newScaledDaGasPrice ≤ priced.maxScaledDaGasPrice := by
  rw [origin.price, origin.config.maxScaledDaGasPrice_eq]
  exact high

section InBounds

variable (origin : DaPricedFrom updater priced updated)
  (low : updater.minScaledDaGasPrice ≤ updater.newScaledDaGasPrice)
  (high : updater.newScaledDaGasPrice ≤ updater.maxScaledDaGasPrice)
include origin low high

theorem step :
    updated.newScaledDaGasPrice.toNat ≤ updater.newScaledDaGasPrice.toNat +
        updater.newScaledDaGasPrice.toNat * updater.maxDaGasPriceChangePercent.toNat / 100 ∧
      updater.newScaledDaGasPrice.toNat ≤ updated.newScaledDaGasPrice.toNat +
        updater.newScaledDaGasPrice.toNat * updater.maxDaGasPriceChangePercent.toNat / 100 := by
  have step := priced.updateDaGasPrice_step (origin.pricedLow low) (origin.pricedHigh high)
  rw [← origin.newPrice, origin.price, origin.config.maxDaGasPriceChangePercent] at step
  exact step

theorem le_of_falling
    (pPositive : 0 < updater.daPComponent.toInt) (dPositive : 0 < updater.daDComponent.toInt)
    (falling : (0 ≤ updated.lastProfit ∧ updated.secondToLastProfit ≤ updated.lastProfit) ∨
      updated.l2Activity.safetyMode ≠ .normal) :
    updated.newScaledDaGasPrice ≤ updater.newScaledDaGasPrice := by
  rw [origin.lastProfit, origin.secondToLastProfit, origin.l2Activity] at falling
  rw [origin.newPrice, ← origin.price]
  apply priced.updateDaGasPrice_le_of_falling (origin.pricedLow low) (origin.pricedHigh high)
    (origin.config.daPComponent ▸ pPositive) (origin.config.daDComponent ▸ dPositive) falling

theorem le_of_rising
    (pPositive : 0 < updater.daPComponent.toInt) (dPositive : 0 < updater.daDComponent.toInt)
    (loss : updated.lastProfit ≤ 0) (falling : updated.lastProfit ≤ updated.secondToLastProfit)
    (normal : updated.l2Activity.safetyMode = .normal) :
    updater.newScaledDaGasPrice ≤ updated.newScaledDaGasPrice := by
  rw [origin.lastProfit] at loss
  rw [origin.lastProfit, origin.secondToLastProfit] at falling
  rw [origin.l2Activity] at normal
  rw [origin.newPrice, ← origin.price]
  apply priced.le_updateDaGasPrice_of_rising (origin.pricedLow low)
    (origin.pricedHigh high) (origin.config.daPComponent ▸ pPositive)
    (origin.config.daDComponent ▸ dPositive) loss falling normal

end InBounds

end DaPricedFrom

/-! ## The prices over a call and over a run -/

structure PricesInBounds (updater : AlgorithmUpdaterV1) : Prop where
  daLow : updater.minScaledDaGasPrice ≤ updater.newScaledDaGasPrice
  daHigh : updater.newScaledDaGasPrice ≤ updater.maxScaledDaGasPrice
  execLow : updater.minScaledExecGasPrice ≤ updater.newScaledExecPrice

/-- One move of the prices: the DA price by at most its change percentage of the old price,
and the execution price by at most its own, unless it lands on the minimum. -/
structure PriceStep (updater updated : AlgorithmUpdaterV1) : Prop where
  daUp : updated.newScaledDaGasPrice.toNat ≤ updater.newScaledDaGasPrice.toNat +
    updater.newScaledDaGasPrice.toNat * updater.maxDaGasPriceChangePercent.toNat / 100
  daDown : updater.newScaledDaGasPrice.toNat ≤ updated.newScaledDaGasPrice.toNat +
    updater.newScaledDaGasPrice.toNat * updater.maxDaGasPriceChangePercent.toNat / 100
  execUp : updated.newScaledExecPrice ≠ updater.minScaledExecGasPrice →
    updated.newScaledExecPrice.toNat ≤ updater.newScaledExecPrice.toNat +
      updater.newScaledExecPrice.toNat * updater.execGasPriceChangePercent.toNat / 100
  execDown : updated.newScaledExecPrice ≠ updater.minScaledExecGasPrice →
    updater.newScaledExecPrice.toNat ≤ updated.newScaledExecPrice.toNat +
      updater.newScaledExecPrice.toNat * updater.execGasPriceChangePercent.toNat / 100

namespace PriceStep

variable {updater updated : AlgorithmUpdaterV1}

theorem refl (updater : AlgorithmUpdaterV1) : PriceStep updater updater :=
  ⟨by omega, by omega, fun _ => by omega, fun _ => by omega⟩

theorem of_daPricedFrom {priced : AlgorithmUpdaterV1} (origin : DaPricedFrom updater priced updated)
    (low : updater.minScaledDaGasPrice ≤ updater.newScaledDaGasPrice)
    (high : updater.newScaledDaGasPrice ≤ updater.maxScaledDaGasPrice)
    (exec : updated.newScaledExecPrice = updater.newScaledExecPrice) : PriceStep updater updated := by
  obtain ⟨daUp, daDown⟩ := origin.step low high
  exact ⟨daUp, daDown, fun _ => by rw [exec]; omega, fun _ => by rw [exec]; omega⟩

theorem of_updateExecGasPrice {active : AlgorithmUpdaterV1} {used : UInt64}
    {capacity : NonZeroU64} (origin : DaPricedFrom updater (active.updateExecGasPrice used capacity) updated)
    (config : SameConfig updater active) (exec : active.newScaledExecPrice = updater.newScaledExecPrice)
    (low : updater.minScaledDaGasPrice ≤ updater.newScaledDaGasPrice)
    (high : updater.newScaledDaGasPrice ≤ updater.maxScaledDaGasPrice) : PriceStep updater updated := by
  obtain ⟨daUp, daDown⟩ := origin.step low high
  have moves : updated.newScaledExecPrice ≠ updater.minScaledExecGasPrice →
      updated.newScaledExecPrice.toNat ≤ updater.newScaledExecPrice.toNat +
          updater.newScaledExecPrice.toNat * updater.execGasPriceChangePercent.toNat / 100 ∧
        updater.newScaledExecPrice.toNat ≤ updated.newScaledExecPrice.toNat +
          updater.newScaledExecPrice.toNat * updater.execGasPriceChangePercent.toNat / 100 := by
    intro moved
    rw [origin.execPrice, ← config.minScaledExecGasPrice_eq] at moved
    rw [origin.execPrice, ← exec, ← config.execGasPriceChangePercent]
    exact active.updateExecGasPrice_step used capacity moved
  exact ⟨daUp, daDown, fun moved => (moves moved).1, fun moved => (moves moved).2⟩

end PriceStep

namespace PricesInBounds

variable {updater : AlgorithmUpdaterV1} {unrecordedBlocks : UnrecordedBlocks}

theorem of_daPricedFrom {priced updated : AlgorithmUpdaterV1}
    (origin : DaPricedFrom updater priced updated) (same : SameConfig updater updated)
    (execLow : updater.minScaledExecGasPrice ≤ updated.newScaledExecPrice) :
    PricesInBounds updated := by
  rw [← same.minScaledExecGasPrice_eq] at execLow
  refine ⟨?_, ?_, execLow⟩
  · rw [same.minScaledDaGasPrice_eq]
    exact origin.mem.1
  · rw [same.maxScaledDaGasPrice_eq]
    exact origin.mem.2

theorem run {call : UpdaterCall} (inBounds : PricesInBounds updater)
    (succeeds : (call.run updater unrecordedBlocks).result = .ok ()) :
    PricesInBounds (call.run updater unrecordedBlocks).updater := by
  have same : SameConfig updater (call.run updater unrecordedBlocks).updater :=
    UpdaterCall.run_sameConfig call
  rcases UpdaterCall.run_cases succeeds with unchanged | ⟨priced, origin, exec⟩ |
    ⟨active, used, capacity, config, -, origin⟩
  · rw [unchanged]
    exact inBounds
  · -- a DA record keeps the execution price
    apply of_daPricedFrom origin same
    rw [origin.execPrice, exec]
    exact inBounds.execLow
  · -- an L2 block computes it again, at or above the minimum
    apply of_daPricedFrom origin same
    rw [origin.execPrice, ← config.minScaledExecGasPrice_eq]
    exact active.le_updateExecGasPrice used capacity

theorem step {call : UpdaterCall} (inBounds : PricesInBounds updater)
    (succeeds : (call.run updater unrecordedBlocks).result = .ok ()) :
    PriceStep updater (call.run updater unrecordedBlocks).updater := by
  rcases UpdaterCall.run_cases succeeds with unchanged | ⟨priced, origin, exec⟩ |
    ⟨active, used, capacity, config, exec, origin⟩
  · rw [unchanged]
    exact PriceStep.refl updater
  · exact PriceStep.of_daPricedFrom origin inBounds.daLow inBounds.daHigh (origin.execPrice.trans exec)
  · exact PriceStep.of_updateExecGasPrice origin config exec inBounds.daLow inBounds.daHigh

theorem runUpdates (calls : List UpdaterCall) (inBounds : PricesInBounds updater)
    (succeeds : (runUpdates updater unrecordedBlocks calls).result = .ok ()) :
    PricesInBounds (runUpdates updater unrecordedBlocks calls).updater := by
  induction calls generalizing updater unrecordedBlocks with
  | nil => exact inBounds
  | cons call calls induction =>
      have ranOk : (call.run updater unrecordedBlocks).result = .ok () := by
        cases ran : (call.run updater unrecordedBlocks).result with
        | ok => rfl
        | error error => simp only [runUpdates, ran, reduceCtorEq] at succeeds
      simp only [runUpdates, ranOk] at succeeds ⊢
      exact induction (inBounds.run ranOk) succeeds

end PricesInBounds

/-- An updater whose execution price is below its minimum, and a DA record of one block. -/
def belowMinimumUpdater : AlgorithmUpdaterV1 := { restingUpdater 1 0 with minExecGasPrice := 1 }

def oneBlockRecord : UpdaterCall := .daRecordData ⟨1, 1⟩ 1 0

/-- A DA record leaves the execution price where it was, below the minimum. -/
theorem da_record_keeps_exec_price_below_minimum :
    belowMinimumUpdater.minScaledDaGasPrice ≤ belowMinimumUpdater.newScaledDaGasPrice ∧
      belowMinimumUpdater.newScaledDaGasPrice ≤ belowMinimumUpdater.maxScaledDaGasPrice ∧
      (oneBlockRecord.run belowMinimumUpdater ∅).result = .ok () ∧
      (oneBlockRecord.run belowMinimumUpdater ∅).updater.newScaledExecPrice <
        belowMinimumUpdater.minScaledExecGasPrice := by
  decide

/-- From prices within their bounds, a successful call keeps them there and moves each by at
most its change percentage. -/
theorem gas_price_steps_are_bounded (updater : AlgorithmUpdaterV1)
    (unrecordedBlocks : UnrecordedBlocks) (call : UpdaterCall) (inBounds : PricesInBounds updater)
    (succeeds : (call.run updater unrecordedBlocks).result = .ok ()) :
    PricesInBounds (call.run updater unrecordedBlocks).updater ∧
      PriceStep updater (call.run updater unrecordedBlocks).updater :=
  ⟨inBounds.run succeeds, inBounds.step succeeds⟩

/-- An updater with both prices inside their bounds, after a loss that grew. -/
def pricedUpdater : AlgorithmUpdaterV1 :=
  { restingUpdater 0 0 with
    newScaledExecPrice := 50
    minExecGasPrice := 10
    execGasPriceChangePercent := 10
    newScaledDaGasPrice := 100
    minDaGasPrice := 10
    maxDaGasPrice := 1000
    maxDaGasPriceChangePercent := 20
    lastProfit := -500
    secondToLastProfit := -400 }

theorem hundred_ne_zero : (100 : UInt64) ≠ 0 := by decide

def pricedBlock : UpdaterCall := .l2BlockData 1 50 ⟨100, hundred_ne_zero⟩ 1000 0

theorem priced_block_steps_are_bounded :
    PricesInBounds pricedUpdater ∧ (pricedBlock.run pricedUpdater ∅).result = .ok () ∧
      PricesInBounds (pricedBlock.run pricedUpdater ∅).updater ∧
      PriceStep pricedUpdater (pricedBlock.run pricedUpdater ∅).updater := by
  have inBounds : PricesInBounds pricedUpdater := ⟨by decide, by decide, by decide⟩
  have succeeds : (pricedBlock.run pricedUpdater ∅).result = .ok () := by decide
  exact ⟨inBounds, succeeds, gas_price_steps_are_bounded _ _ _ inBounds succeeds⟩

/-! ## The sign table of the DA price -/

/-- The sign table of the PD controller in the documentation of `AlgorithmUpdaterV1`: a profit
that is not negative and not falling, or an activity outside the normal range, does not raise
the DA price; a loss that is not shrinking, in the normal range, does not lower it. -/
structure FollowsProfitSigns (updater updated : AlgorithmUpdaterV1) : Prop where
  falls : (0 ≤ updated.lastProfit ∧ updated.secondToLastProfit ≤ updated.lastProfit) ∨
      updated.l2Activity.safetyMode = .capped ∨ updated.l2Activity.safetyMode = .alwaysDecrease →
    updated.newScaledDaGasPrice ≤ updater.newScaledDaGasPrice
  rises : updated.lastProfit ≤ 0 ∧ updated.lastProfit ≤ updated.secondToLastProfit ∧
      updated.l2Activity.safetyMode = .normal →
    updater.newScaledDaGasPrice ≤ updated.newScaledDaGasPrice

namespace FollowsProfitSigns

variable {updater priced updated : AlgorithmUpdaterV1}

theorem refl (updater : AlgorithmUpdaterV1) : FollowsProfitSigns updater updater :=
  ⟨fun _ => UInt64.le_iff_toNat_le.mpr (Nat.le_refl _),
    fun _ => UInt64.le_iff_toNat_le.mpr (Nat.le_refl _)⟩

theorem of_daPricedFrom (origin : DaPricedFrom updater priced updated)
    (pPositive : 0 < updater.daPComponent.toInt) (dPositive : 0 < updater.daDComponent.toInt)
    (low : updater.minScaledDaGasPrice ≤ updater.newScaledDaGasPrice)
    (high : updater.newScaledDaGasPrice ≤ updater.maxScaledDaGasPrice) :
    FollowsProfitSigns updater updated := by
  constructor
  · intro falling
    apply origin.le_of_falling low high pPositive dPositive
    rcases falling with profit | capped | decreasing
    · exact .inl profit
    · exact .inr (by rw [capped]; decide)
    · exact .inr (by rw [decreasing]; decide)
  · rintro ⟨loss, falling, normal⟩
    exact origin.le_of_rising low high pPositive dPositive loss falling normal

end FollowsProfitSigns

/-- With positive P and D components and a DA price within its bounds, every successful call
moves the DA price the way the sign table says. -/
theorem da_price_follows_profit_signs (updater : AlgorithmUpdaterV1)
    (unrecordedBlocks : UnrecordedBlocks) (call : UpdaterCall)
    (pPositive : 0 < updater.daPComponent.toInt) (dPositive : 0 < updater.daDComponent.toInt)
    (low : updater.minScaledDaGasPrice ≤ updater.newScaledDaGasPrice)
    (high : updater.newScaledDaGasPrice ≤ updater.maxScaledDaGasPrice)
    (succeeds : (call.run updater unrecordedBlocks).result = .ok ()) :
    FollowsProfitSigns updater (call.run updater unrecordedBlocks).updater := by
  rcases UpdaterCall.run_cases succeeds with unchanged | ⟨priced, origin, -⟩ |
    ⟨active, used, capacity, -, -, origin⟩
  · rw [unchanged]
    exact FollowsProfitSigns.refl updater
  · exact FollowsProfitSigns.of_daPricedFrom origin pPositive dPositive low high
  · exact FollowsProfitSigns.of_daPricedFrom origin pPositive dPositive low high

theorem priced_block_follows_profit_signs :
    0 < pricedUpdater.daPComponent.toInt ∧ 0 < pricedUpdater.daDComponent.toInt ∧
      pricedUpdater.minScaledDaGasPrice ≤ pricedUpdater.newScaledDaGasPrice ∧
      pricedUpdater.newScaledDaGasPrice ≤ pricedUpdater.maxScaledDaGasPrice ∧
      (pricedBlock.run pricedUpdater ∅).result = .ok () ∧
      FollowsProfitSigns pricedUpdater (pricedBlock.run pricedUpdater ∅).updater := by
  have pPositive : 0 < pricedUpdater.daPComponent.toInt := by decide
  have dPositive : 0 < pricedUpdater.daDComponent.toInt := by decide
  have low : pricedUpdater.minScaledDaGasPrice ≤ pricedUpdater.newScaledDaGasPrice := by decide
  have high : pricedUpdater.newScaledDaGasPrice ≤ pricedUpdater.maxScaledDaGasPrice := by decide
  have succeeds : (pricedBlock.run pricedUpdater ∅).result = .ok () := by decide
  exact ⟨pPositive, dPositive, low, high, succeeds,
    da_price_follows_profit_signs _ _ _ pPositive dPositive low high succeeds⟩

end FuelCore.GasPrice
