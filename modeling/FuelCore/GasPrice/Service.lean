import FuelCore.GasPrice.Projection
import Mathlib.Logic.Function.Iterate

/-! # The gas price service, version 1

`gas_price_service/src/v1/service.rs`: `GasPriceServiceV1` buffers the costs the DA source
reports and, with each L2 block, applies them and then the block to its `AlgorithmUpdaterV1`,
inside a storage transaction over the unrecorded blocks, the recorded height and the metadata.
The transaction is committed when the whole block goes through. When a call fails, the
transaction is dropped and the buffer is kept for the next block, but the updater in memory
keeps what the calls did to it: a DA record that fails after its cost was added adds the cost
again with every block that follows.
-/

namespace FuelCore.GasPrice

open Saturating

structure DaBlockCosts where
  bundleId : UInt32
  l2Blocks : RangeInclusive
  bundleSizeBytes : UInt32
  blobCostWei : ℕ
  deriving DecidableEq, Repr

/-- The columns of the service's storage: the unrecorded blocks, the recorded height, and the
metadata, here the updater it is taken from. -/
structure GasPriceStorage where
  unrecordedBlocks : UnrecordedBlocks
  recordedHeight : Option UInt32
  metadata : Option AlgorithmUpdaterV1

structure GasPriceServiceV1 where
  /-- The updater whose `algorithm()` the shared algorithm was last set to. -/
  sharedAlgo : AlgorithmUpdaterV1
  algorithmUpdater : AlgorithmUpdaterV1
  daBlockCostsBuffer : List DaBlockCosts
  storage : GasPriceStorage
  initialRecordedHeight : Option UInt32

inductive ServiceError
  /-- "Block gas capacity must be non-zero" -/
  | zeroBlockGasCapacity
  | updater (error : Error)
  deriving DecidableEq, Repr

inductive BlockInfo
  | genesisBlock
  | block (height : UInt32) (gasUsed blockGasCapacity blockBytes blockFees gasPrice : UInt64)

/-- What `run` receives: an L2 block, or the costs of a DA bundle. -/
inductive ServiceEvent
  | l2Block (block : BlockInfo)
  | daBlockCosts (costs : DaBlockCosts)

/-- The loop of `handle_normal_block` over the buffer: each record updates the updater and
the transaction's unrecorded blocks and moves the recorded height to the end of its range;
the first error ends the loop. -/
def updateDaRecords (updater : AlgorithmUpdaterV1) (unrecordedBlocks : UnrecordedBlocks)
    (newRecordedHeight : Option UInt32) : List DaBlockCosts → Updated × Option UInt32
  | [] => (⟨updater, unrecordedBlocks, .ok ()⟩, newRecordedHeight)
  | daBlockCosts :: buffer =>
      let updated := updater.updateDaRecordData daBlockCosts.l2Blocks
        daBlockCosts.bundleSizeBytes daBlockCosts.blobCostWei unrecordedBlocks
      match updated.result with
      | .error _ => (updated, newRecordedHeight)
      | .ok () => updateDaRecords updated.updater updated.unrecordedBlocks
          (some daBlockCosts.l2Blocks.stop) buffer

namespace GasPriceServiceV1

variable (service : GasPriceServiceV1)

def handleNormalBlock (height : UInt32) (gasUsed blockGasCapacity blockBytes blockFees : UInt64) :
    GasPriceServiceV1 × Except ServiceError Unit :=
  if zero : blockGasCapacity = 0 then (service, .error .zeroBlockGasCapacity)
  else
    let capacity : NonZeroU64 := ⟨blockGasCapacity, zero⟩
    let storageTx := service.storage
    -- the initial recorded height is taken on the first run, also when the block then fails
    let (newRecordedHeight, initialRecordedHeight) :=
      match storageTx.recordedHeight with
      | some _ => (none, service.initialRecordedHeight)
      | none => (service.initialRecordedHeight, none)
    let service := { service with initialRecordedHeight }
    let (updated, newRecordedHeight) := updateDaRecords service.algorithmUpdater
      storageTx.unrecordedBlocks newRecordedHeight service.daBlockCostsBuffer
    match updated.result with
    | .error error =>
        ({ service with algorithmUpdater := updated.updater }, .error (.updater error))
    | .ok () =>
        let feeInWei := mul 128 blockFees.toNat 1000000000
        let updated := updated.updater.updateL2BlockData height gasUsed capacity blockBytes
          feeInWei updated.unrecordedBlocks
        match updated.result with
        | .error error =>
            ({ service with algorithmUpdater := updated.updater }, .error (.updater error))
        | .ok () =>
            ({ service with
                algorithmUpdater := updated.updater
                sharedAlgo := updated.updater
                daBlockCostsBuffer := []
                storage :=
                  { unrecordedBlocks := updated.unrecordedBlocks
                    recordedHeight := newRecordedHeight.or storageTx.recordedHeight
                    metadata := some updated.updater } },
              .ok ())

def applyBlockInfoToGasAlgorithm : BlockInfo → GasPriceServiceV1 × Except ServiceError Unit
  | .genesisBlock =>
      ({ service with
          storage := { service.storage with metadata := some service.algorithmUpdater }
          sharedAlgo := service.algorithmUpdater }, .ok ())
  | .block height gasUsed blockGasCapacity blockBytes blockFees _ =>
      service.handleNormalBlock height gasUsed blockGasCapacity blockBytes blockFees

/-- One turn of `run`: a block that fails is reported, and the service goes on. -/
def step : ServiceEvent → GasPriceServiceV1
  | .l2Block block => (service.applyBlockInfoToGasAlgorithm block).1
  | .daBlockCosts costs => { service with daBlockCostsBuffer := service.daBlockCostsBuffer ++ [costs] }

def run (events : List ServiceEvent) : GasPriceServiceV1 :=
  events.foldl step service

end GasPriceServiceV1

/-! ## What a block leaves behind -/

namespace GasPriceServiceV1

variable {service : GasPriceServiceV1} {height : UInt32}
  {gasUsed blockGasCapacity blockBytes blockFees : UInt64}

/-- A block that fails drops the storage transaction and keeps the buffer and the shared
algorithm: only the updater and the initial recorded height move. -/
theorem handleNormalBlock_of_error {error : ServiceError}
    (failed : (service.handleNormalBlock height gasUsed blockGasCapacity blockBytes
      blockFees).2 = .error error) :
    ∃ updater initialRecordedHeight,
      (service.handleNormalBlock height gasUsed blockGasCapacity blockBytes blockFees).1 =
        { service with algorithmUpdater := updater, initialRecordedHeight } := by
  unfold handleNormalBlock at failed ⊢
  split
  · exact ⟨service.algorithmUpdater, service.initialRecordedHeight, rfl⟩
  · rename_i capacity
    simp only [capacity, dite_false] at failed
    split at failed
    · rename_i recordFailed
      simp only [recordFailed]
      exact ⟨_, _, rfl⟩
    · rename_i recorded
      simp only [recorded] at failed ⊢
      split at failed
      · rename_i blockFailed
        simp only [blockFailed]
        exact ⟨_, _, rfl⟩
      · cases failed

theorem handleNormalBlock_of_ok
    (succeeded : (service.handleNormalBlock height gasUsed blockGasCapacity blockBytes
      blockFees).2 = .ok ()) :
    (service.handleNormalBlock height gasUsed blockGasCapacity blockBytes
        blockFees).1.daBlockCostsBuffer = [] ∧
      (service.handleNormalBlock height gasUsed blockGasCapacity blockBytes blockFees).1.sharedAlgo =
        (service.handleNormalBlock height gasUsed blockGasCapacity blockBytes
          blockFees).1.algorithmUpdater ∧
      (service.handleNormalBlock height gasUsed blockGasCapacity blockBytes
          blockFees).1.storage.metadata =
        some (service.handleNormalBlock height gasUsed blockGasCapacity blockBytes
          blockFees).1.algorithmUpdater := by
  unfold handleNormalBlock at succeeded ⊢
  split
  · rename_i zero
    simp only [zero, dite_true, reduceCtorEq] at succeeded
  · rename_i capacity
    simp only [capacity, dite_false] at succeeded
    split at succeeded
    · cases succeeded
    · rename_i recorded
      simp only [recorded] at succeeded ⊢
      split at succeeded
      · cases succeeded
      · rename_i blockDone
        simp only [blockDone, and_self]

/-- A record at the front of the buffer over a non-empty range, with no recorded bytes, ends
the loop at once, after its cost was added to the known cost. -/
theorem updateDaRecords_of_zero (updater : AlgorithmUpdaterV1)
    (unrecordedBlocks : UnrecordedBlocks) (newRecordedHeight : Option UInt32)
    {costs : DaBlockCosts} (rest : List DaBlockCosts) (nonempty : costs.l2Blocks.isEmpty = false)
    (zeroBytes : costs.bundleSizeBytes = 0) :
    (updateDaRecords updater unrecordedBlocks newRecordedHeight (costs :: rest)).1.result =
        .error (.couldNotCalculateCostPerByte 0 costs.blobCostWei) ∧
      (updateDaRecords updater unrecordedBlocks newRecordedHeight
        (costs :: rest)).1.updater.latestKnownTotalDaCost =
        add 128 updater.latestKnownTotalDaCost costs.blobCostWei := by
  simp only [updateDaRecords, zeroBytes, updateDaRecordData_of_zero _ nonempty, true_and]

theorem handleNormalBlock_of_zero_record {costs : DaBlockCosts} {rest : List DaBlockCosts}
    (buffered : service.daBlockCostsBuffer = costs :: rest)
    (nonempty : costs.l2Blocks.isEmpty = false) (zeroBytes : costs.bundleSizeBytes = 0)
    (capacity : blockGasCapacity ≠ 0) :
    (service.handleNormalBlock height gasUsed blockGasCapacity blockBytes blockFees).2 =
        .error (.updater (.couldNotCalculateCostPerByte 0 costs.blobCostWei)) ∧
      (service.handleNormalBlock height gasUsed blockGasCapacity blockBytes
        blockFees).1.algorithmUpdater.latestKnownTotalDaCost =
        add 128 service.algorithmUpdater.latestKnownTotalDaCost costs.blobCostWei := by
  have recorded := fun newRecordedHeight => updateDaRecords_of_zero service.algorithmUpdater
    service.storage.unrecordedBlocks newRecordedHeight rest nonempty zeroBytes
  unfold handleNormalBlock
  simp only [capacity, dite_false, buffered, (recorded _).1, (recorded _).2, true_and]

end GasPriceServiceV1

/-- An L2 block other than the genesis block, with a gas capacity. -/
def ServiceEvent.IsNormalBlock : ServiceEvent → Prop
  | .l2Block (.block _ _ blockGasCapacity _ _ _) => blockGasCapacity ≠ 0
  | _ => False

instance : DecidablePred ServiceEvent.IsNormalBlock
  | .l2Block (.block _ _ blockGasCapacity _ _ _) =>
      inferInstanceAs (Decidable (blockGasCapacity ≠ 0))
  | .l2Block .genesisBlock => isFalse id
  | .daBlockCosts _ => isFalse id

/-- Once a record that fails is at the front of the buffer, every following block fails and
adds the record's cost to the known cost once more, while nothing reaches the storage. -/
theorem failed_da_record_cost_is_added_with_every_block (service : GasPriceServiceV1)
    (costs : DaBlockCosts) (rest : List DaBlockCosts)
    (buffered : service.daBlockCostsBuffer = costs :: rest)
    (nonempty : costs.l2Blocks.isEmpty = false) (zeroBytes : costs.bundleSizeBytes = 0)
    (events : List ServiceEvent) (blocks : ∀ event ∈ events, event.IsNormalBlock) :
    (service.run events).storage = service.storage ∧
      (service.run events).daBlockCostsBuffer = service.daBlockCostsBuffer ∧
      (service.run events).algorithmUpdater.latestKnownTotalDaCost =
        Nat.iterate (add 128 · costs.blobCostWei) events.length
          service.algorithmUpdater.latestKnownTotalDaCost := by
  induction events generalizing service with
  | nil => exact ⟨rfl, rfl, rfl⟩
  | cons event events induction =>
      obtain ⟨height, gasUsed, blockGasCapacity, blockBytes, blockFees, gasPrice, rfl, capacity⟩ :
          ∃ height gasUsed blockGasCapacity blockBytes blockFees gasPrice,
            event = .l2Block (.block height gasUsed blockGasCapacity blockBytes blockFees
              gasPrice) ∧ blockGasCapacity ≠ 0 := by
        have normal := blocks event List.mem_cons_self
        rcases event with (_ | ⟨height, gasUsed, blockGasCapacity, blockBytes, blockFees,
          gasPrice⟩) | _
        · exact normal.elim
        · exact ⟨_, _, _, _, _, _, rfl, normal⟩
        · exact normal.elim
      obtain ⟨failed, known⟩ := @GasPriceServiceV1.handleNormalBlock_of_zero_record service height
        gasUsed blockGasCapacity blockBytes blockFees costs rest buffered nonempty zeroBytes capacity
      obtain ⟨updater, initialRecordedHeight, stepped⟩ :=
        GasPriceServiceV1.handleNormalBlock_of_error failed
      have ranOnce : service.run (.l2Block (.block height gasUsed blockGasCapacity blockBytes
          blockFees gasPrice) :: events) =
          (service.handleNormalBlock height gasUsed blockGasCapacity blockBytes blockFees).1.run
            events := rfl
      -- the block fails and leaves the buffer: the same record fails in the next one
      obtain ⟨storage, buffer, cost⟩ :=
        induction { service with algorithmUpdater := updater, initialRecordedHeight } buffered
          (fun event member => blocks event (.tail _ member))
      rw [stepped] at known
      rw [ranOnce, stepped]
      refine ⟨storage, buffer, ?_⟩
      rw [cost, List.length_cons, Function.iterate_succ_apply, ← known]

/-- A record of block 1 whose bundle has no bytes, at a cost of 5. -/
def zeroByteRecord : DaBlockCosts := ⟨0, ⟨1, 1⟩, 0, 5⟩

/-- A service with block 1 of 10 bytes unrecorded and the record of it buffered. -/
def zeroByteRecordService : GasPriceServiceV1 where
  sharedAlgo := restingUpdater 1 10
  algorithmUpdater := restingUpdater 1 10
  daBlockCostsBuffer := [zeroByteRecord]
  storage := ⟨(∅ : UnrecordedBlocks).insert 1 10, some 0, none⟩
  initialRecordedHeight := none

def nextTwoBlocks : List ServiceEvent :=
  [.l2Block (.block 2 0 100 0 0 0), .l2Block (.block 3 0 100 0 0 0)]

theorem zero_byte_record_cost_counted_twice :
    (zeroByteRecordService.run nextTwoBlocks).storage = zeroByteRecordService.storage ∧
      (zeroByteRecordService.run nextTwoBlocks).algorithmUpdater.latestKnownTotalDaCost = 10 := by
  obtain ⟨storage, -, cost⟩ := failed_da_record_cost_is_added_with_every_block
    zeroByteRecordService zeroByteRecord [] rfl rfl rfl nextTwoBlocks (by decide)
  exact ⟨storage, cost.trans (by decide)⟩

end FuelCore.GasPrice
