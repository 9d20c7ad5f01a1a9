import FuelCore.Executor.TransactionSpec
import FuelCore.Executor.Block

/-! # The fee of a skipped transaction

A produced block ends with its mint, whose amount is the coinbase the execution data
collected. That coinbase counts a transaction's fee before `update_execution_data` adds its
gas and size, so a transaction whose size overflows the `u32` of used bytes is skipped with
its fee still in the coinbase: the block mints more than its statuses record, and
`validate_block`, which collects the coinbase of the block's transactions alone, rejects it.
-/

namespace FuelCore.Executor

/-- The block and execution data a run of `produce_block` returns, when it returns one. -/
def producedBlock {σ : Type} : EStateM.Result ExecutorError Producing (Option σ) → Option Producing
  | .ok (some _) producing => some producing
  | _ => none

/-- What the block's last transaction mints, when it is a mint. -/
def PartialFuelBlock.mintedAmount (block : PartialFuelBlock) : Option Word :=
  match block.transactions.getLast? with
  | some (.mint mint) => some mint.mintAmount
  | _ => none

/-- The fees the transactions' statuses record. -/
def ExecutionData.statusFees (data : ExecutionData) : ℕ :=
  (data.txStatus.map fun status => status.result.totalFee.toNat).sum

/-! ## A fee minted for a skipped transaction -/

/-- A virtual machine under which every transaction pays a fee of `1`, uses gas `1` and has
`2 ^ 31` metered bytes: two transactions overflow the `u32` of used bytes. -/
def largeTransactionsVm : Vm where
  id
    | .chargeable tx => tx.body
    | .mint _ => 0
  intoCheckedBasic tx _ := .ok tx
  intoChecked tx _ _ := .ok tx
  fromBytes _ := none
  maxGas _ := .ok 1
  minGas _ := 1
  maxFeeLimit _ := 1
  refundFee _ _ _ := some 0
  meteredBytesSize _ := 2 ^ 31
  checkPredicates tx _ := .ok tx
  checkSignatures tx := .ok tx
  execute tx _ _ _ storage := .ok ⟨false, 0, tx, [], storage⟩
  balanceIncrease mint _ _ storage := .ok (mint.inputContract, mint.outputContract, storage)
  eventInboxRoot _ := 0

/-- Without a relayer, with a block gas limit of `100` and the largest size limit. -/
def largeTransactionsExecutor : BlockExecutor :=
  ⟨⟨false, fun _ => .ok []⟩, ⟨100, 0xFFFFFFFF, 0⟩, ⟨false⟩, largeTransactionsVm⟩

/-- A script with no inputs or outputs that never expires. -/
def largeTransaction (body : ℕ) : MaybeCheckedTransaction :=
  .transaction (.chargeable ⟨[], [], 0xFFFFFFFF, body⟩)

/-- Block `1`, its transactions given once, its fees to contract `7` at gas price `1`. -/
def largeTransactionsComponents : Components (List MaybeCheckedTransaction) :=
  ⟨blockOneHeader, onceTransactionsSource, 7, 1⟩

/-- One large transaction alone: the block mints the fee its status records. -/
example : (producedBlock (largeTransactionsExecutor.produceBlock largeTransactionsComponents 0 2
      [largeTransaction 1] .empty)).map
    (fun producing => (producing.block.mintedAmount, producing.data.statusFees)) =
    some (some 1, 1) := by
  decide +kernel

/-- The second transaction overflows the used bytes after its fee was added to the coinbase:
it is skipped, and the block mints `2` for statuses that record fees of `1`. -/
theorem oversized_transaction_fee_is_minted :
    (producedBlock (largeTransactionsExecutor.produceBlock largeTransactionsComponents 0 2
        [largeTransaction 1, largeTransaction 2] .empty)).map
      (fun producing => (producing.block.mintedAmount, producing.data.statusFees)) =
      some (some 2, 1) := by
  decide +kernel

/-- Validating that block over the same storage re-executes the first transaction only, and
rejects the mint, whose amount is not the coinbase validation collects. -/
theorem block_minting_skipped_fee_fails_validation :
    ((largeTransactionsExecutor.produceWithoutCommit largeTransactionsComponents 0 2
        [largeTransaction 1, largeTransaction 2] .empty).map fun produced =>
      produced.map fun (block, _) =>
        (largeTransactionsExecutor.validateWithoutCommit block .empty).map Prod.fst) =
      some (.ok (.error .coinbaseAmountMismatch)) := by
  decide +kernel

/-- Without the second transaction, validation accepts the produced block and collects the
same execution data. -/
example : ((largeTransactionsExecutor.produceWithoutCommit largeTransactionsComponents 0 2
      [largeTransaction 1] .empty).map fun produced =>
    produced.map fun (block, data, _) =>
      (largeTransactionsExecutor.validateWithoutCommit block .empty).map
        fun (validated : ExecutionData × Storage) => decide (validated.1 = data)) =
    some (.ok (.ok true)) := by
  decide +kernel

end FuelCore.Executor
