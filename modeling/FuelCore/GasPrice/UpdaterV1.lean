import FuelCore.Lib.Unsigned
import FuelCore.Lib.Saturating
import FuelCore.Lib.Range
import FuelCore.Lib.AList

/-! # The gas price updater, version 1

`fuel-gas-price-algorithm/src/v1.rs`: `AlgorithmUpdaterV1` turns each L2 block into a new
execution gas price and a new DA gas price, and each DA record of a range of blocks into a new
known DA cost and cost per byte. Between records it projects the DA cost of the blocks not
recorded yet from their sizes and the latest cost per byte.

`u128` and `i128` values are natural numbers and integers with the operations of `Saturating`;
the unrecorded blocks are the `BTreeMap<u32, u64>` implementation of `UnrecordedBlocks`, whose
insertions and removals never fail. A call changes the updater and the map in place, so both
are returned together with the call's result, also where it fails half way.
-/

namespace FuelCore.GasPrice

open Saturating

/-- A value between 0 and 100 when built by `new`. -/
structure ClampedPercentage where
  value : UInt8
  deriving DecidableEq, Repr

def ClampedPercentage.new (maybeValue : UInt8) : ClampedPercentage :=
  ⟨min maybeValue 100⟩

structure NonZeroU64 where
  get : UInt64
  ne_zero : get ≠ 0
  deriving DecidableEq

structure L2ActivityTracker where
  maxActivity : UInt16
  cappedActivityThreshold : UInt16
  decreaseActivityThreshold : UInt16
  chainActivity : UInt16
  blockActivityThreshold : ClampedPercentage
  deriving DecidableEq, Repr

inductive DAGasPriceSafetyMode
  | normal
  | capped
  | alwaysDecrease
  deriving DecidableEq, Repr

namespace L2ActivityTracker

def newFull (normalRangeSize cappedRangeSize decreaseRangeSize : UInt16)
    (blockActivityThreshold : ClampedPercentage) : L2ActivityTracker :=
  let decreaseActivityThreshold := decreaseRangeSize
  let cappedActivityThreshold := decreaseRangeSize.saturatingAdd cappedRangeSize
  let maxActivity := cappedActivityThreshold.saturatingAdd normalRangeSize
  { maxActivity, cappedActivityThreshold, decreaseActivityThreshold,
    chainActivity := maxActivity, blockActivityThreshold }

def new (normalRangeSize cappedRangeSize decreaseRangeSize activity : UInt16)
    (blockActivityThreshold : ClampedPercentage) : L2ActivityTracker :=
  let tracker := newFull normalRangeSize cappedRangeSize decreaseRangeSize blockActivityThreshold
  { tracker with chainActivity := min activity tracker.maxActivity }

def newAlwaysNormal : L2ActivityTracker :=
  new 100 0 0 100 (ClampedPercentage.new 0)

def safetyMode (tracker : L2ActivityTracker) : DAGasPriceSafetyMode :=
  if tracker.cappedActivityThreshold ≤ tracker.chainActivity then .normal
  else if tracker.decreaseActivityThreshold ≤ tracker.chainActivity then .capped
  else .alwaysDecrease

def update (tracker : L2ActivityTracker) (blockUsage : ClampedPercentage) : L2ActivityTracker :=
  if blockUsage.value < tracker.blockActivityThreshold.value then
    { tracker with chainActivity := tracker.chainActivity.saturatingSub 1 }
  else
    { tracker with chainActivity := min (tracker.chainActivity.saturatingAdd 1) tracker.maxActivity }

end L2ActivityTracker

structure AlgorithmUpdaterV1 where
  newScaledExecPrice : UInt64
  minExecGasPrice : UInt64
  execGasPriceChangePercent : UInt16
  l2BlockHeight : UInt32
  l2BlockFullnessThresholdPercent : ClampedPercentage
  newScaledDaGasPrice : UInt64
  gasPriceFactor : NonZeroU64
  minDaGasPrice : UInt64
  maxDaGasPrice : UInt64
  maxDaGasPriceChangePercent : UInt16
  totalDaRewards : ℕ
  latestKnownTotalDaCost : ℕ
  projectedTotalDaCost : ℕ
  daPComponent : Int64
  daDComponent : Int64
  lastProfit : ℤ
  secondToLastProfit : ℤ
  latestDaCostPerByte : ℕ
  l2Activity : L2ActivityTracker
  unrecordedBlocksBytes : ℕ

/-- The errors the updater raises over a `BTreeMap` of unrecorded blocks. -/
inductive Error
  | skippedL2Block (expected got : UInt32)
  | couldNotCalculateCostPerByte (bytes cost : ℕ)
  deriving DecidableEq, Repr

/-- `BTreeMap<Height, Bytes>`. -/
abbrev UnrecordedBlocks := AList fun _ : UInt32 => UInt64

/-- The updater and the unrecorded blocks after a call, and what the call returned. -/
structure Updated where
  updater : AlgorithmUpdaterV1
  unrecordedBlocks : UnrecordedBlocks
  result : Except Error Unit

namespace AlgorithmUpdaterV1

variable (updater : AlgorithmUpdaterV1)

def descaledExecPrice : UInt64 := updater.newScaledExecPrice / updater.gasPriceFactor.get

def descaledDaPrice : UInt64 := updater.newScaledDaGasPrice / updater.gasPriceFactor.get

/-- `fee_wei * (da_price / (exec_price + da_price))`, rounded up. -/
def daPortionOfFee (feeWei : ℕ) : ℕ :=
  let numerator := mul 128 feeWei updater.descaledDaPrice.toNat
  let denominator := add 128 updater.descaledExecPrice.toNat updater.descaledDaPrice.toNat
  if denominator = 0 then 0 else divCeil numerator denominator

def updateDaRewards (feeWei : ℕ) : AlgorithmUpdaterV1 :=
  { updater with totalDaRewards := add 128 updater.totalDaRewards (updater.daPortionOfFee feeWei) }

def updateProjectedDaCost (blockBytes : UInt64) : AlgorithmUpdaterV1 :=
  { updater with
    projectedTotalDaCost :=
      add 128 updater.projectedTotalDaCost (mul 128 blockBytes.toNat updater.latestDaCostPerByte) }

/-- `i128::try_from(..).unwrap_or(i128::MAX)` of the projected cost. -/
def clampedProjectedCostAsI128 : ℤ := min (updater.projectedTotalDaCost : ℤ) (signedMax 128)

/-- `i128::try_from(..).unwrap_or(i128::MAX)` of the rewards. -/
def clampedRewardsAsI128 : ℤ := min (updater.totalDaRewards : ℤ) (signedMax 128)

def updateLastProfit (newProfit : ℤ) : AlgorithmUpdaterV1 :=
  { updater with secondToLastProfit := updater.lastProfit, lastProfit := newProfit }

def updateActivity (used : UInt64) (capacity : NonZeroU64) : AlgorithmUpdaterV1 :=
  let blockActivity := used.saturatingMul 100 / capacity.get
  -- `try_into().unwrap_or(100)` into a `u8`
  let usage := ClampedPercentage.new
    (if blockActivity.toNat < UInt8.size then blockActivity.toUInt8 else 100)
  { updater with l2Activity := updater.l2Activity.update usage }

def execChange (principle : UInt64) : UInt64 :=
  principle.saturatingMul updater.execGasPriceChangePercent.toUInt64 / 100

def minScaledExecGasPrice : UInt64 :=
  updater.minExecGasPrice.saturatingMul updater.gasPriceFactor.get

def updateExecGasPrice (used : UInt64) (capacity : NonZeroU64) : AlgorithmUpdaterV1 :=
  let threshold := updater.l2BlockFullnessThresholdPercent.value.toUInt64
  let scaledExecGasPrice := updater.newScaledExecPrice
  -- `checked_div` by a capacity that is not zero never falls back to the threshold
  let fullnessPercent := used.saturatingMul 100 / capacity.get
  let scaledExecGasPrice :=
    if threshold ≤ fullnessPercent then
      scaledExecGasPrice.saturatingAdd (updater.execChange scaledExecGasPrice)
    else scaledExecGasPrice.saturatingSub (updater.execChange scaledExecGasPrice)
  { updater with newScaledExecPrice := max updater.minScaledExecGasPrice scaledExecGasPrice }

def minScaledDaGasPrice : UInt64 :=
  updater.minDaGasPrice.saturatingMul updater.gasPriceFactor.get

def maxScaledDaGasPrice : UInt64 :=
  (max updater.maxDaGasPrice updater.minDaGasPrice).saturatingMul updater.gasPriceFactor.get

/-- The P component of the change: the profit over `da_p_component`, negated. -/
def p : ℤ :=
  let checkedP := icheckedDiv 128 updater.lastProfit updater.daPComponent.toInt
  imul 128 (checkedP.getD 0) (-1)

/-- The D component of the change: the slope of the profit over `da_d_component`, negated. -/
def d : ℤ :=
  let slope := isub 128 updater.lastProfit updater.secondToLastProfit
  let checkedD := icheckedDiv 128 slope updater.daDComponent.toInt
  imul 128 (checkedD.getD 0) (-1)

def maxChange : ℤ :=
  ((updater.newScaledDaGasPrice.saturatingMul updater.maxDaGasPriceChangePercent.toUInt64) /
    100).toNat

def daChange (p d : ℤ) : ℤ :=
  let scaledPdChange := imul 128 (iadd 128 p d) updater.gasPriceFactor.get.toNat
  let clampedChange := min (iabs 128 scaledPdChange) updater.maxChange
  imul 128 scaledPdChange.sign clampedChange

def daChangeAccountingForActivity (maybeDaChange : ℤ) : ℤ :=
  if 0 < maybeDaChange then
    match updater.l2Activity.safetyMode with
    | .normal => maybeDaChange
    | .capped => 0
    | .alwaysDecrease => imul 128 updater.maxChange (-1)
  else maybeDaChange

def updateDaGasPrice : AlgorithmUpdaterV1 :=
  let maybeScaledDaChange := updater.daChange updater.p updater.d
  let scaledDaChange := updater.daChangeAccountingForActivity maybeScaledDaChange
  let maybeNewScaledDaGasPrice : UInt64 :=
    match (icheckedAdd 128 updater.newScaledDaGasPrice.toNat scaledDaChange).bind
        (toUnsigned? 64) with
    | some price => price.toUInt64
    | none => if 0 < scaledDaChange then UInt64.ofNat (UInt64.size - 1) else 0
  { updater with
    newScaledDaGasPrice :=
      min (max updater.minScaledDaGasPrice maybeNewScaledDaGasPrice) updater.maxScaledDaGasPrice }

def updateL2BlockData (height : UInt32) (used : UInt64) (capacity : NonZeroU64)
    (blockBytes : UInt64) (feeWei : ℕ) (unrecordedBlocks : UnrecordedBlocks) : Updated :=
  let expected := updater.l2BlockHeight.saturatingAdd 1
  if height ≠ expected then ⟨updater, unrecordedBlocks, .error (.skippedL2Block expected height)⟩
  else
    let updater := { updater with l2BlockHeight := height }
    let updater := updater.updateDaRewards feeWei
    let rewards := updater.clampedRewardsAsI128
    let updater := updater.updateProjectedDaCost blockBytes
    let projectedTotalDaCost := updater.clampedProjectedCostAsI128
    let lastProfit := isub 128 rewards projectedTotalDaCost
    let updater := updater.updateLastProfit lastProfit
    let updater := updater.updateActivity used capacity
    let updater := updater.updateExecGasPrice used capacity
    let updater := updater.updateDaGasPrice
    let unrecordedBlocks := unrecordedBlocks.insert height blockBytes
    let updater :=
      { updater with unrecordedBlocksBytes := add 128 updater.unrecordedBlocksBytes blockBytes.toNat }
    ⟨updater, unrecordedBlocks, .ok ()⟩

end AlgorithmUpdaterV1

/-- One turn of the loop of `update_unrecorded_block_bytes`: the height is removed, and the
bytes found under it are added to the total. -/
def removeUnrecorded (removed : ℕ × UnrecordedBlocks) (expectedHeight : UInt32) :
    ℕ × UnrecordedBlocks :=
  let (total, unrecordedBlocks) := removed
  let maybeBytes := unrecordedBlocks.lookup expectedHeight
  let unrecordedBlocks := unrecordedBlocks.erase expectedHeight
  match maybeBytes with
  | some bytes => (add 128 total bytes.toNat, unrecordedBlocks)
  | none => (total, unrecordedBlocks)

namespace AlgorithmUpdaterV1

variable (updater : AlgorithmUpdaterV1)

def updateUnrecordedBlockBytes (heights : RangeInclusive) (unrecordedBlocks : UnrecordedBlocks) :
    AlgorithmUpdaterV1 × UnrecordedBlocks :=
  let (total, unrecordedBlocks) := heights.toList.foldl removeUnrecorded (0, unrecordedBlocks)
  ({ updater with unrecordedBlocksBytes := updater.unrecordedBlocksBytes - total }, unrecordedBlocks)

def daBlockUpdate (heights : RangeInclusive) (recordedBytes recordingCost : ℕ)
    (unrecordedBlocks : UnrecordedBlocks) : Updated :=
  let (updater, unrecordedBlocks) := updater.updateUnrecordedBlockBytes heights unrecordedBlocks
  let updater :=
    { updater with latestKnownTotalDaCost := add 128 updater.latestKnownTotalDaCost recordingCost }
  -- `checked_div` fails on zero recorded bytes only, after the lines above took effect
  if recordedBytes = 0 then
    ⟨updater, unrecordedBlocks, .error (.couldNotCalculateCostPerByte recordedBytes recordingCost)⟩
  else ⟨{ updater with latestDaCostPerByte := recordingCost / recordedBytes }, unrecordedBlocks, .ok ()⟩

def recalculateProjectedCost : AlgorithmUpdaterV1 :=
  { updater with
    projectedTotalDaCost :=
      add 128 updater.latestKnownTotalDaCost
        (mul 128 updater.unrecordedBlocksBytes updater.latestDaCostPerByte) }

def updateDaRecordData (heights : RangeInclusive) (recordedBytes : UInt32) (recordingCost : ℕ)
    (unrecordedBlocks : UnrecordedBlocks) : Updated :=
  if heights.isEmpty then ⟨updater, unrecordedBlocks, .ok ()⟩
  else
    let updated := updater.daBlockUpdate heights recordedBytes.toNat recordingCost unrecordedBlocks
    match updated.result with
    | .error error => ⟨updated.updater, updated.unrecordedBlocks, .error error⟩
    | .ok () =>
        ⟨updated.updater.recalculateProjectedCost.updateDaGasPrice, updated.unrecordedBlocks, .ok ()⟩

end AlgorithmUpdaterV1

/-- The two updates the gas price service makes. -/
inductive UpdaterCall
  | l2BlockData (height : UInt32) (used : UInt64) (capacity : NonZeroU64) (blockBytes : UInt64)
      (feeWei : ℕ)
  | daRecordData (heights : RangeInclusive) (recordedBytes : UInt32) (recordingCost : ℕ)

def UpdaterCall.run (updater : AlgorithmUpdaterV1) (unrecordedBlocks : UnrecordedBlocks) :
    UpdaterCall → Updated
  | .l2BlockData height used capacity blockBytes feeWei =>
      updater.updateL2BlockData height used capacity blockBytes feeWei unrecordedBlocks
  | .daRecordData heights recordedBytes recordingCost =>
      updater.updateDaRecordData heights recordedBytes recordingCost unrecordedBlocks

/-- Calls one after the other, up to the first that fails. -/
def runUpdates (updater : AlgorithmUpdaterV1) (unrecordedBlocks : UnrecordedBlocks) :
    List UpdaterCall → Updated
  | [] => ⟨updater, unrecordedBlocks, .ok ()⟩
  | call :: calls =>
      let updated := call.run updater unrecordedBlocks
      match updated.result with
      | .ok () => runUpdates updated.updater updated.unrecordedBlocks calls
      | .error _ => updated

end FuelCore.GasPrice
