import FuelCore.Lib.Unsigned

/-! # The worst-case gas price

`fuel-gas-price-algorithm/src/utils.rs`: `cumulative_percentage_change` raises a gas price
by a percentage for every block up to a target height. The factor comes from the table
`PRECOMPUTED_EXP` while the number of blocks and the percentage are small, and is computed
otherwise. The `worst_case` of both algorithms, and the gas price provider's
`worst_case_gas_price` that the `estimateGasPrice` query calls, go through it.

The factors are `f64`s, `Float` here. The table is any table of the source's shape, since
nothing here depends on its values. Indexing outside the table panics, which is `none` here.
-/

namespace FuelCore.GasPrice

/-- `BLOCK_COUNT_M`. -/
def blockCountM : ℕ := 25

/-- `PERCENTAGE_COUNT_N`. -/
def percentageCountN : ℕ := 25

/-- `PRECOMPUTED_EXP`: `BLOCK_COUNT_M` rows of `PERCENTAGE_COUNT_N` factors. -/
structure PrecomputedExp where
  rows : Array (Array Float)
  rowCount : rows.size = blockCountM
  columnCount : ∀ row ∈ rows, row.size = percentageCountN

/-- `cumulative_percentage_change`, `none` where the table lookup panics. -/
def cumulativePercentageChange (precomputedExp : PrecomputedExp) (newExecPrice : UInt64)
    (forHeight : UInt32) (percentage : UInt64) (height : UInt32) : Option UInt64 :=
  let blocks := height.saturatingSub forHeight
  let multiple :=
    if blocks.toNat > blockCountM ∨ percentage.toNat > percentageCountN then
      some (Float.exp (blocks.toNat.toFloat * (1.0 + percentage.toNat.toFloat / 100.0).log))
    else (precomputedExp.rows[blocks.toNat]?).bind (·[percentage.toNat]?)
  multiple.map fun multiple =>
    let approx := newExecPrice.toNat.toFloat * multiple
    -- `ROUNDING_ERROR_COMPENSATION` above `ROUNDING_ERROR_CUTOFF`
    let approx := approx + 2000.0 * (if approx > 16948547188989277.0 then 1.0 else 0.0)
    approx.ceil.toUInt64

structure AlgorithmV0 where
  newExecPrice : UInt64
  forHeight : UInt32
  percentage : UInt64

/-- `AlgorithmV0::worst_case`. -/
def AlgorithmV0.worstCase (precomputedExp : PrecomputedExp) (algorithm : AlgorithmV0)
    (height : UInt32) : Option UInt64 :=
  cumulativePercentageChange precomputedExp algorithm.newExecPrice algorithm.forHeight
    algorithm.percentage height

structure AlgorithmV1 where
  newExecPrice : UInt64
  execPricePercentage : UInt64
  newDaGasPrice : UInt64
  daGasPricePercentage : UInt64
  forHeight : UInt32

/-- `AlgorithmV1::worst_case`: the execution and DA prices, each raised, then added. -/
def AlgorithmV1.worstCase (precomputedExp : PrecomputedExp) (algorithm : AlgorithmV1)
    (height : UInt32) : Option UInt64 := do
  let exec ← cumulativePercentageChange precomputedExp algorithm.newExecPrice
    algorithm.forHeight algorithm.execPricePercentage height
  let da ← cumulativePercentageChange precomputedExp algorithm.newDaGasPrice
    algorithm.forHeight algorithm.daGasPricePercentage height
  pure (exec.saturatingAdd da)

/-- `UniversalGasPriceProvider<u32, u64>`: the height and gas price of its shared state, and
the largest increase per block. -/
structure UniversalGasPriceProvider where
  height : UInt32
  gasPrice : UInt64
  percentage : UInt16

/-- `GasPriceEstimate::worst_case_gas_price`. -/
def UniversalGasPriceProvider.worstCaseGasPrice (precomputedExp : PrecomputedExp)
    (provider : UniversalGasPriceProvider) (height : UInt32) : Option UInt64 :=
  cumulativePercentageChange precomputedExp provider.gasPrice provider.height
    provider.percentage.toUInt64 height

/-- The errors of `estimate_gas_price`. -/
inductive EstimateError
  /-- "Invalid block horizon. Overflows latest block". -/
  | invalidBlockHorizon
  deriving DecidableEq, Repr

/-- `EstimateGasPriceExt::estimate_gas_price` at the latest block height: `none` where it
panics. -/
def estimateGasPrice (precomputedExp : PrecomputedExp) (provider : UniversalGasPriceProvider)
    (latestBlockHeight : UInt32) (blockHorizon : Option UInt32) :
    Option (Except EstimateError UInt64) :=
  match blockHorizon.bind (·.checkedAdd latestBlockHeight) with
  | none => some (.error .invalidBlockHorizon)
  | some targetBlock => (provider.worstCaseGasPrice precomputedExp targetBlock).map .ok

/-! ## The edge of the table -/

/-- Twenty-five blocks ahead with a percentage of at most twenty-five, the guard
`blocks > BLOCK_COUNT_M || percentage > PERCENTAGE_COUNT_N` lets the lookup through, and it
reads row 25 of a table whose rows are numbered from 0 to 24. -/
theorem cumulativePercentageChange_at_row_count (precomputedExp : PrecomputedExp)
    (newExecPrice : UInt64) {forHeight height : UInt32} {percentage : UInt64}
    (edge : height.toNat - forHeight.toNat = blockCountM)
    (small : percentage.toNat ≤ percentageCountN) :
    cumulativePercentageChange precomputedExp newExecPrice forHeight percentage height = none := by
  have blocks : (height.saturatingSub forHeight).toNat = blockCountM := by
    rw [UInt32.toNat_saturatingSub, edge]
  have outside : precomputedExp.rows[blockCountM]? = none := by
    rw [Array.getElem?_eq_none_iff, precomputedExp.rowCount]
  unfold cumulativePercentageChange
  simp only [blocks, lt_irrefl, false_or, not_lt.mpr small, if_false, outside, Option.bind_none,
    Option.map_none]

/-- The `estimateGasPrice` query with a horizon of 25 blocks, at a latest height equal to
the provider's, panics whenever the provider's percentage is at most 25. -/
theorem estimate_gas_price_panics_at_horizon_25 (precomputedExp : PrecomputedExp)
    (provider : UniversalGasPriceProvider) (fits : provider.height.toNat + 25 < 2 ^ 32)
    (small : provider.percentage.toNat ≤ 25) :
    estimateGasPrice precomputedExp provider provider.height (some 25) = none := by
  have twentyFive : (25 : UInt32).toNat = 25 := rfl
  have sizeEq : UInt32.size = 2 ^ 32 := rfl
  have target : (25 : UInt32).checkedAdd provider.height = some (provider.height + 25) := by
    rw [UInt32.checkedAdd_eq_some_iff, UInt32.toNat_add, twentyFive, Nat.mod_eq_of_lt fits]
    exact ⟨by omega, by omega⟩
  have edge : (provider.height + 25).toNat - provider.height.toNat = blockCountM := by
    rw [UInt32.toNat_add, twentyFive, Nat.mod_eq_of_lt fits, blockCountM]
    omega
  have smallPercentage : provider.percentage.toUInt64.toNat ≤ percentageCountN := by
    rw [UInt16.toNat_toUInt64]
    exact small
  simp only [estimateGasPrice, Option.bind_some, target, UniversalGasPriceProvider.worstCaseGasPrice,
    cumulativePercentageChange_at_row_count precomputedExp provider.gasPrice edge smallPercentage,
    Option.map_none]

/-- A table of the source's shape, every factor 1. -/
def unitTable : PrecomputedExp where
  rows := Array.replicate blockCountM (Array.replicate percentageCountN 1.0)
  rowCount := Array.size_replicate
  columnCount row member := by
    rw [Array.eq_of_mem_replicate member, Array.size_replicate]

theorem estimate_gas_price_panics_at_horizon_25_from_genesis :
    (0 : UInt32).toNat + 25 < 2 ^ 32 ∧ (5 : UInt16).toNat ≤ 25 ∧
      estimateGasPrice unitTable ⟨0, 1, 5⟩ 0 (some 25) = none :=
  ⟨by decide, by decide, estimate_gas_price_panics_at_horizon_25 unitTable ⟨0, 1, 5⟩ (by decide) (by decide)⟩

end FuelCore.GasPrice
