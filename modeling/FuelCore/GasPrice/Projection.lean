import FuelCore.GasPrice.UpdaterV1

/-! # The projected DA cost

Between two DA records the updater projects the cost of the blocks not recorded yet. Three
facts tie the projection to the map of unrecorded blocks: the byte counter is the sum of the
sizes in the map, no block in the map is above the L2 height, and the projection is the known
cost plus the unrecorded bytes at the latest cost per byte. An L2 block and a DA record keep
all three as long as no `u128` sum or product on the DA cost saturates and the L2 height is
below the last `u32`. At the last height `saturating_add` lets the same height in again: the
new block replaces the old one in the map, and its bytes are counted on top of the old ones.
-/

namespace FuelCore.GasPrice

open Saturating

/-- The bytes of the unrecorded blocks. -/
def unrecordedSum (unrecordedBlocks : UnrecordedBlocks) : ℕ :=
  AList.valueSum UInt64.toNat unrecordedBlocks

structure Projects (updater : AlgorithmUpdaterV1) (unrecordedBlocks : UnrecordedBlocks) :
    Prop where
  bytes : updater.unrecordedBlocksBytes = unrecordedSum unrecordedBlocks
  heights : ∀ height ∈ unrecordedBlocks, height ≤ updater.l2BlockHeight
  projection : updater.projectedTotalDaCost =
    updater.latestKnownTotalDaCost + updater.unrecordedBlocksBytes * updater.latestDaCostPerByte

namespace UpdaterCall

/-- No `u128` sum or product that the call makes on the DA cost saturates. -/
def NoSaturation (updater : AlgorithmUpdaterV1) (unrecordedBlocks : UnrecordedBlocks) :
    UpdaterCall → Prop
  | .l2BlockData _ _ _ blockBytes _ =>
      updater.projectedTotalDaCost + blockBytes.toNat * updater.latestDaCostPerByte ≤
          unsignedMax 128 ∧
        updater.unrecordedBlocksBytes + blockBytes.toNat ≤ unsignedMax 128
  | .daRecordData heights recordedBytes recordingCost =>
      let remaining :=
        (updater.updateUnrecordedBlockBytes heights unrecordedBlocks).1.unrecordedBlocksBytes
      updater.latestKnownTotalDaCost + recordingCost +
          remaining * (recordingCost / recordedBytes.toNat) ≤ unsignedMax 128

/-- An L2 block comes while the L2 height is below the last `u32`. -/
def BelowLastHeight (updater : AlgorithmUpdaterV1) : UpdaterCall → Prop
  | .l2BlockData .. => updater.l2BlockHeight.toNat + 1 < UInt32.size
  | .daRecordData .. => True

instance (updater : AlgorithmUpdaterV1) (unrecordedBlocks : UnrecordedBlocks) :
    ∀ call : UpdaterCall, Decidable (call.NoSaturation updater unrecordedBlocks)
  | .l2BlockData .. => instDecidableAnd
  | .daRecordData .. => Nat.decLe _ _

instance (updater : AlgorithmUpdaterV1) : ∀ call : UpdaterCall, Decidable (call.BelowLastHeight updater)
  | .l2BlockData .. => Nat.decLt _ _
  | .daRecordData .. => instDecidableTrue

end UpdaterCall

/-- `holds` of every call of a run, at the updater and the map that the call finds. -/
def EachCall (holds : AlgorithmUpdaterV1 → UnrecordedBlocks → UpdaterCall → Prop) :
    AlgorithmUpdaterV1 → UnrecordedBlocks → List UpdaterCall → Prop
  | _, _, [] => True
  | updater, unrecordedBlocks, call :: calls =>
      holds updater unrecordedBlocks call ∧
        EachCall holds (call.run updater unrecordedBlocks).updater
          (call.run updater unrecordedBlocks).unrecordedBlocks calls

/-! ## The removal loop -/

theorem removeUnrecorded_eq (total : ℕ) (unrecordedBlocks : UnrecordedBlocks) (height : UInt32) :
    removeUnrecorded (total, unrecordedBlocks) height =
      ((unrecordedBlocks.lookup height).elim total fun bytes => add 128 total bytes.toNat,
        unrecordedBlocks.erase height) := by
  unfold removeUnrecorded
  dsimp only
  cases unrecordedBlocks.lookup height <;> rfl

theorem removeUnrecorded_sum (total : ℕ) (unrecordedBlocks : UnrecordedBlocks) (height : UInt32)
    (fits : total + unrecordedSum unrecordedBlocks ≤ unsignedMax 128) :
    (removeUnrecorded (total, unrecordedBlocks) height).1 +
        unrecordedSum (removeUnrecorded (total, unrecordedBlocks) height).2 =
      total + unrecordedSum unrecordedBlocks := by
  have erased := AList.valueSum_erase_add UInt64.toNat unrecordedBlocks height
  rw [removeUnrecorded_eq]
  dsimp only
  unfold unrecordedSum at *
  cases found : unrecordedBlocks.lookup height with
  | none =>
      rw [found, Option.elim_none, Nat.add_zero] at erased
      rw [Option.elim_none, erased]
  | some bytes =>
      rw [found, Option.elim_some] at erased
      rw [Option.elim_some, add_of_le (by omega)]
      omega

theorem foldl_removeUnrecorded (heights : List UInt32) (total : ℕ)
    (unrecordedBlocks : UnrecordedBlocks)
    (fits : total + unrecordedSum unrecordedBlocks ≤ unsignedMax 128) :
    (heights.foldl removeUnrecorded (total, unrecordedBlocks)).1 +
        unrecordedSum (heights.foldl removeUnrecorded (total, unrecordedBlocks)).2 =
      total + unrecordedSum unrecordedBlocks ∧
      ∀ height ∈ (heights.foldl removeUnrecorded (total, unrecordedBlocks)).2,
        height ∈ unrecordedBlocks := by
  induction heights generalizing total unrecordedBlocks with
  | nil => exact ⟨rfl, fun _ member => member⟩
  | cons height heights induction =>
      have moved := removeUnrecorded_sum total unrecordedBlocks height fits
      rw [List.foldl_cons]
      obtain ⟨sum, kept⟩ := induction _ _ (moved ▸ fits)
      refine ⟨sum.trans moved, fun key member => ?_⟩
      have erased := kept key member
      rw [removeUnrecorded_eq, AList.mem_erase] at erased
      exact erased.2

/-! ## What each call does to the DA cost -/

section Calls

variable {updater : AlgorithmUpdaterV1} {unrecordedBlocks : UnrecordedBlocks}

theorem updateL2BlockData_of_expected {height : UInt32} (used : UInt64) (capacity : NonZeroU64)
    (blockBytes : UInt64) (feeWei : ℕ) (expected : height = updater.l2BlockHeight.saturatingAdd 1) :
    (updater.updateL2BlockData height used capacity blockBytes feeWei unrecordedBlocks).result =
        .ok () ∧
      (updater.updateL2BlockData height used capacity blockBytes feeWei
        unrecordedBlocks).unrecordedBlocks = unrecordedBlocks.insert height blockBytes ∧
      (updater.updateL2BlockData height used capacity blockBytes feeWei
        unrecordedBlocks).updater.l2BlockHeight = height ∧
      (updater.updateL2BlockData height used capacity blockBytes feeWei
        unrecordedBlocks).updater.latestKnownTotalDaCost = updater.latestKnownTotalDaCost ∧
      (updater.updateL2BlockData height used capacity blockBytes feeWei
        unrecordedBlocks).updater.latestDaCostPerByte = updater.latestDaCostPerByte ∧
      (updater.updateL2BlockData height used capacity blockBytes feeWei
        unrecordedBlocks).updater.projectedTotalDaCost =
        add 128 updater.projectedTotalDaCost (mul 128 blockBytes.toNat updater.latestDaCostPerByte) ∧
      (updater.updateL2BlockData height used capacity blockBytes feeWei
        unrecordedBlocks).updater.unrecordedBlocksBytes =
        add 128 updater.unrecordedBlocksBytes blockBytes.toNat := by
  subst expected
  unfold AlgorithmUpdaterV1.updateL2BlockData
  dsimp only
  rw [if_neg (not_not.mpr rfl)]
  exact ⟨rfl, rfl, rfl, rfl, rfl, rfl, rfl⟩

theorem updateL2BlockData_of_unexpected {height : UInt32} (used : UInt64) (capacity : NonZeroU64)
    (blockBytes : UInt64) (feeWei : ℕ) (unexpected : height ≠ updater.l2BlockHeight.saturatingAdd 1) :
    (updater.updateL2BlockData height used capacity blockBytes feeWei unrecordedBlocks).result =
      .error (.skippedL2Block (updater.l2BlockHeight.saturatingAdd 1) height) := by
  simp only [AlgorithmUpdaterV1.updateL2BlockData, unexpected, ne_eq, not_false_eq_true, if_true]

theorem updateDaRecordData_of_empty {heights : RangeInclusive} (recordedBytes : UInt32)
    (recordingCost : ℕ) (empty : heights.isEmpty = true) :
    updater.updateDaRecordData heights recordedBytes recordingCost unrecordedBlocks =
      ⟨updater, unrecordedBlocks, .ok ()⟩ := by
  simp only [AlgorithmUpdaterV1.updateDaRecordData, empty, if_true]

theorem updateDaRecordData_of_ok {heights : RangeInclusive} {recordedBytes : UInt32}
    {recordingCost : ℕ} (nonempty : heights.isEmpty = false)
    (succeeds : (updater.updateDaRecordData heights recordedBytes recordingCost
      unrecordedBlocks).result = .ok ()) :
    (updater.updateDaRecordData heights recordedBytes recordingCost
        unrecordedBlocks).unrecordedBlocks =
        (heights.toList.foldl removeUnrecorded (0, unrecordedBlocks)).2 ∧
      (updater.updateDaRecordData heights recordedBytes recordingCost
        unrecordedBlocks).updater.l2BlockHeight = updater.l2BlockHeight ∧
      (updater.updateDaRecordData heights recordedBytes recordingCost
        unrecordedBlocks).updater.unrecordedBlocksBytes =
        (updater.updateUnrecordedBlockBytes heights unrecordedBlocks).1.unrecordedBlocksBytes ∧
      (updater.updateDaRecordData heights recordedBytes recordingCost
        unrecordedBlocks).updater.latestKnownTotalDaCost =
        add 128 updater.latestKnownTotalDaCost recordingCost ∧
      (updater.updateDaRecordData heights recordedBytes recordingCost
        unrecordedBlocks).updater.latestDaCostPerByte = recordingCost / recordedBytes.toNat ∧
      (updater.updateDaRecordData heights recordedBytes recordingCost
        unrecordedBlocks).updater.projectedTotalDaCost =
        add 128 (add 128 updater.latestKnownTotalDaCost recordingCost)
          (mul 128 (updater.updateUnrecordedBlockBytes heights unrecordedBlocks).1.unrecordedBlocksBytes
            (recordingCost / recordedBytes.toNat)) := by
  unfold AlgorithmUpdaterV1.updateDaRecordData AlgorithmUpdaterV1.daBlockUpdate at *
  by_cases recorded : recordedBytes.toNat = 0
  · simp only [nonempty, recorded, Bool.false_eq_true, if_false, if_true] at succeeds
    cases succeeds
  · simp only [nonempty, recorded, Bool.false_eq_true, if_false]
    exact ⟨rfl, rfl, rfl, rfl, rfl, rfl⟩

/-- A DA record of a non-empty range with no recorded bytes fails at the division, after the
blocks of the range left the map and their bytes the counter, and after its cost was added to
the known cost. -/
theorem updateDaRecordData_of_zero {heights : RangeInclusive} (recordingCost : ℕ)
    (nonempty : heights.isEmpty = false) :
    updater.updateDaRecordData heights 0 recordingCost unrecordedBlocks =
      ⟨{ (updater.updateUnrecordedBlockBytes heights unrecordedBlocks).1 with
          latestKnownTotalDaCost := add 128 updater.latestKnownTotalDaCost recordingCost },
        (updater.updateUnrecordedBlockBytes heights unrecordedBlocks).2,
        .error (.couldNotCalculateCostPerByte 0 recordingCost)⟩ := by
  simp only [AlgorithmUpdaterV1.updateDaRecordData, AlgorithmUpdaterV1.daBlockUpdate, nonempty,
    Bool.false_eq_true, if_false, UInt32.toNat_zero, if_true]
  rfl

theorem updateUnrecordedBlockBytes_eq (heights : RangeInclusive) :
    updater.updateUnrecordedBlockBytes heights unrecordedBlocks =
      ({ updater with
          unrecordedBlocksBytes := updater.unrecordedBlocksBytes -
            (heights.toList.foldl removeUnrecorded (0, unrecordedBlocks)).1 },
        (heights.toList.foldl removeUnrecorded (0, unrecordedBlocks)).2) := rfl

end Calls

/-! ## The three facts over a run -/

section Invariant

variable {updater : AlgorithmUpdaterV1} {unrecordedBlocks : UnrecordedBlocks}

theorem Projects.updateL2BlockData {height : UInt32} {used : UInt64} {capacity : NonZeroU64}
    {blockBytes : UInt64} {feeWei : ℕ} (holds : Projects updater unrecordedBlocks)
    (fits : (UpdaterCall.l2BlockData height used capacity blockBytes feeWei).NoSaturation updater
      unrecordedBlocks)
    (below : updater.l2BlockHeight.toNat + 1 < UInt32.size)
    (succeeds : (updater.updateL2BlockData height used capacity blockBytes feeWei
      unrecordedBlocks).result = .ok ()) :
    Projects (updater.updateL2BlockData height used capacity blockBytes feeWei
        unrecordedBlocks).updater
      (updater.updateL2BlockData height used capacity blockBytes feeWei
        unrecordedBlocks).unrecordedBlocks ∧
      (updater.updateL2BlockData height used capacity blockBytes feeWei
        unrecordedBlocks).updater.unrecordedBlocksBytes ≤ unsignedMax 128 := by
  have expected : height = updater.l2BlockHeight.saturatingAdd 1 := by
    by_contra unexpected
    rw [updateL2BlockData_of_unexpected used capacity blockBytes feeWei unexpected] at succeeds
    cases succeeds
  obtain ⟨projectedFits, bytesFit⟩ := fits
  obtain ⟨-, blocks, newHeight, known, perByte, projected, counted⟩ :=
    @updateL2BlockData_of_expected updater unrecordedBlocks height used capacity blockBytes feeWei
      expected
  -- the new height is one above the old one, so the block is not in the map yet
  have next : height.toNat = updater.l2BlockHeight.toNat + 1 := by
    rw [expected, UInt32.toNat_saturatingAdd, UInt32.toNat_one]
    exact min_eq_left (Nat.le_sub_one_of_lt below)
  have fresh : height ∉ unrecordedBlocks := fun member => by
    have atMost := UInt32.le_iff_toNat_le.mp (holds.heights height member)
    omega
  have absent : unrecordedBlocks.lookup height = none := AList.lookup_eq_none.mpr fresh
  have sum : unrecordedSum (unrecordedBlocks.insert height blockBytes) =
      blockBytes.toNat + unrecordedSum unrecordedBlocks := by
    have erased := AList.valueSum_erase_add UInt64.toNat unrecordedBlocks height
    rw [absent, Option.elim_none, Nat.add_zero] at erased
    unfold unrecordedSum
    rw [AList.valueSum_insert, erased]
  rw [blocks]
  refine ⟨⟨?_, ?_, ?_⟩, ?_⟩
  · rw [counted, sum, add_of_le bytesFit, holds.bytes]
    omega
  · intro key member
    rw [newHeight]
    rcases (AList.mem_insert _).mp member with rfl | old
    · exact UInt32.le_refl key
    · have atMost := UInt32.le_iff_toNat_le.mp (holds.heights key old)
      exact UInt32.le_iff_toNat_le.mpr (by omega)
  · have productFits : blockBytes.toNat * updater.latestDaCostPerByte ≤ unsignedMax 128 := by
      omega
    rw [projected, known, perByte, counted, add_of_le bytesFit, mul_of_le productFits,
      add_of_le projectedFits, holds.projection, Nat.add_mul]
    omega
  · rw [counted, add_of_le bytesFit]
    exact bytesFit

theorem Projects.updateDaRecordData {heights : RangeInclusive} {recordedBytes : UInt32}
    {recordingCost : ℕ} (holds : Projects updater unrecordedBlocks)
    (counter : updater.unrecordedBlocksBytes ≤ unsignedMax 128)
    (fits : (UpdaterCall.daRecordData heights recordedBytes recordingCost).NoSaturation updater
      unrecordedBlocks)
    (succeeds : (updater.updateDaRecordData heights recordedBytes recordingCost
      unrecordedBlocks).result = .ok ()) :
    Projects (updater.updateDaRecordData heights recordedBytes recordingCost
        unrecordedBlocks).updater
      (updater.updateDaRecordData heights recordedBytes recordingCost
        unrecordedBlocks).unrecordedBlocks ∧
      (updater.updateDaRecordData heights recordedBytes recordingCost
        unrecordedBlocks).updater.unrecordedBlocksBytes ≤ unsignedMax 128 := by
  cases nonempty : heights.isEmpty
  case true =>
    rw [updateDaRecordData_of_empty recordedBytes recordingCost nonempty]
    exact ⟨holds, counter⟩
  obtain ⟨blocks, height, counted, known, perByte, projected⟩ :=
    updateDaRecordData_of_ok nonempty succeeds
  obtain ⟨moved, kept⟩ := foldl_removeUnrecorded heights.toList 0 unrecordedBlocks
    (by rw [Nat.zero_add, ← holds.bytes]; exact counter)
  have remaining : (updater.updateUnrecordedBlockBytes heights unrecordedBlocks).1.unrecordedBlocksBytes =
      updater.unrecordedBlocksBytes - (heights.toList.foldl removeUnrecorded (0, unrecordedBlocks)).1 := by
    rw [updateUnrecordedBlockBytes_eq]
  simp only [UpdaterCall.NoSaturation] at fits
  rw [blocks]
  refine ⟨⟨?_, ?_, ?_⟩, ?_⟩
  · rw [counted, remaining, holds.bytes]
    omega
  · intro key member
    rw [height]
    exact holds.heights key (kept key member)
  · have knownFits : updater.latestKnownTotalDaCost + recordingCost ≤ unsignedMax 128 := by
      omega
    have productFits : (updater.updateUnrecordedBlockBytes heights
        unrecordedBlocks).1.unrecordedBlocksBytes * (recordingCost / recordedBytes.toNat) ≤
          unsignedMax 128 := by
      omega
    rw [projected, known, perByte, counted, add_of_le knownFits, mul_of_le productFits,
      add_of_le fits]
  · rw [counted, remaining]
    omega

theorem Projects.run {call : UpdaterCall} (holds : Projects updater unrecordedBlocks)
    (counter : updater.unrecordedBlocksBytes ≤ unsignedMax 128)
    (fits : call.NoSaturation updater unrecordedBlocks) (below : call.BelowLastHeight updater)
    (succeeds : (call.run updater unrecordedBlocks).result = .ok ()) :
    Projects (call.run updater unrecordedBlocks).updater
        (call.run updater unrecordedBlocks).unrecordedBlocks ∧
      (call.run updater unrecordedBlocks).updater.unrecordedBlocksBytes ≤ unsignedMax 128 := by
  cases call with
  | l2BlockData height used capacity blockBytes feeWei =>
      exact holds.updateL2BlockData fits below succeeds
  | daRecordData heights recordedBytes recordingCost =>
      exact holds.updateDaRecordData counter fits succeeds

theorem Projects.runUpdates (calls : List UpdaterCall) (holds : Projects updater unrecordedBlocks)
    (counter : updater.unrecordedBlocksBytes ≤ unsignedMax 128)
    (fits : EachCall (fun updater unrecordedBlocks call =>
      call.NoSaturation updater unrecordedBlocks ∧ call.BelowLastHeight updater)
      updater unrecordedBlocks calls)
    (succeeds : (runUpdates updater unrecordedBlocks calls).result = .ok ()) :
    Projects (runUpdates updater unrecordedBlocks calls).updater
        (runUpdates updater unrecordedBlocks calls).unrecordedBlocks ∧
      (runUpdates updater unrecordedBlocks calls).updater.unrecordedBlocksBytes ≤
        unsignedMax 128 := by
  induction calls generalizing updater unrecordedBlocks with
  | nil => exact ⟨holds, counter⟩
  | cons call calls induction =>
      obtain ⟨⟨callFits, below⟩, restFits⟩ := fits
      have ranOk : (call.run updater unrecordedBlocks).result = .ok () := by
        cases ran : (call.run updater unrecordedBlocks).result with
        | ok => rfl
        | error error => simp only [runUpdates, ran, reduceCtorEq] at succeeds
      have stepped := holds.run counter callFits below ranOk
      simp only [runUpdates, ranOk] at succeeds ⊢
      exact induction stepped.1 stepped.2 restFits succeeds

end Invariant

/-- Every successful run from a state with the three facts keeps them, as long as no `u128`
sum or product on the DA cost saturates and no L2 block comes at the last height. -/
theorem da_projection_holds_below_last_height (updater : AlgorithmUpdaterV1)
    (unrecordedBlocks : UnrecordedBlocks) (calls : List UpdaterCall)
    (holds : Projects updater unrecordedBlocks)
    (counter : updater.unrecordedBlocksBytes ≤ unsignedMax 128)
    (fits : EachCall (fun updater unrecordedBlocks call =>
      call.NoSaturation updater unrecordedBlocks ∧ call.BelowLastHeight updater)
      updater unrecordedBlocks calls)
    (succeeds : (runUpdates updater unrecordedBlocks calls).result = .ok ()) :
    Projects (runUpdates updater unrecordedBlocks calls).updater
      (runUpdates updater unrecordedBlocks calls).unrecordedBlocks :=
  (holds.runUpdates calls counter fits succeeds).1

/-- An updater with nothing paid, priced or recorded yet, at an L2 height. -/
def restingUpdater (l2BlockHeight : UInt32) (unrecordedBlocksBytes : ℕ) : AlgorithmUpdaterV1 where
  newScaledExecPrice := 0
  minExecGasPrice := 0
  execGasPriceChangePercent := 0
  l2BlockHeight := l2BlockHeight
  l2BlockFullnessThresholdPercent := ClampedPercentage.new 50
  newScaledDaGasPrice := 0
  gasPriceFactor := ⟨1, by decide⟩
  minDaGasPrice := 0
  maxDaGasPrice := 0
  maxDaGasPriceChangePercent := 0
  totalDaRewards := 0
  latestKnownTotalDaCost := 0
  projectedTotalDaCost := 0
  daPComponent := 1
  daDComponent := 1
  lastProfit := 0
  secondToLastProfit := 0
  latestDaCostPerByte := 0
  l2Activity := L2ActivityTracker.newAlwaysNormal
  unrecordedBlocksBytes := unrecordedBlocksBytes

/-- Block 1 of 1000 bytes, then its DA record at 20 per byte. -/
def firstBlockAndRecord : List UpdaterCall :=
  [.l2BlockData 1 50 ⟨100, by decide⟩ 1000 0, .daRecordData ⟨1, 1⟩ 500 10000]

theorem da_projection_holds_below_last_height_first_block :
    Projects (restingUpdater 0 0) ∅ ∧ (restingUpdater 0 0).unrecordedBlocksBytes ≤ unsignedMax 128 ∧
      EachCall (fun updater unrecordedBlocks call =>
        call.NoSaturation updater unrecordedBlocks ∧ call.BelowLastHeight updater)
        (restingUpdater 0 0) ∅ firstBlockAndRecord ∧
      (runUpdates (restingUpdater 0 0) ∅ firstBlockAndRecord).result = .ok () ∧
      Projects (runUpdates (restingUpdater 0 0) ∅ firstBlockAndRecord).updater
        (runUpdates (restingUpdater 0 0) ∅ firstBlockAndRecord).unrecordedBlocks := by
  have holds : Projects (restingUpdater 0 0) ∅ :=
    ⟨rfl, fun height member => absurd member (AList.notMem_empty height), rfl⟩
  have counter : (restingUpdater 0 0).unrecordedBlocksBytes ≤ unsignedMax 128 := by decide
  have fits : EachCall (fun updater unrecordedBlocks call =>
      call.NoSaturation updater unrecordedBlocks ∧ call.BelowLastHeight updater)
      (restingUpdater 0 0) ∅ firstBlockAndRecord :=
    ⟨⟨⟨by decide, by decide⟩, by decide⟩, ⟨by decide, trivial⟩, trivial⟩
  have succeeds : (runUpdates (restingUpdater 0 0) ∅ firstBlockAndRecord).result = .ok () := by
    decide
  exact ⟨holds, counter, fits, succeeds,
    da_projection_holds_below_last_height _ _ _ holds counter fits succeeds⟩

/-- The map at the last height: 5 bytes under height `u32::MAX`. -/
def lastHeightBlocks : UnrecordedBlocks := (∅ : UnrecordedBlocks).insert 4294967295 5

/-- Another block of 7 bytes at the last height, which `saturating_add` lets through. -/
def lastHeightBlock : UpdaterCall := .l2BlockData 4294967295 0 ⟨1, by decide⟩ 7 0

theorem block_at_last_height_is_counted_twice :
    Projects (restingUpdater 4294967295 5) lastHeightBlocks ∧
      EachCall (fun updater unrecordedBlocks call => call.NoSaturation updater unrecordedBlocks)
        (restingUpdater 4294967295 5) lastHeightBlocks [lastHeightBlock] ∧
      (runUpdates (restingUpdater 4294967295 5) lastHeightBlocks [lastHeightBlock]).result =
        .ok () ∧
      ¬Projects (runUpdates (restingUpdater 4294967295 5) lastHeightBlocks [lastHeightBlock]).updater
        (runUpdates (restingUpdater 4294967295 5) lastHeightBlocks [lastHeightBlock]).unrecordedBlocks := by
  refine ⟨⟨rfl, fun height _ => ?_, rfl⟩, ⟨⟨by decide, by decide⟩, trivial⟩, by decide,
    fun projects => absurd projects.bytes (by decide)⟩
  exact UInt32.le_iff_toNat_le.mpr (Nat.le_of_lt_succ height.toNat_lt)

end FuelCore.GasPrice
