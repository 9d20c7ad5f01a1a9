import FuelCore.Lib.Unsigned
import Mathlib.Data.List.AList

/-! # The block executor's data

`services/executor/src/executor.rs` runs the transactions of a block over a storage
transaction and collects, in `ExecutionData`, what the block and the importer need: the fees
for the coinbase, the gas and bytes used, the count of transactions, their statuses, the
events, and the transactions it skipped.

Identifiers (`Bytes32` and the ids built on it) are natural numbers, so `zeroed()` is `0`.
A transaction keeps what the executor reads of it. `Script`, `Create`, `Upgrade`, `Upload`
and `Blob` all go through `execute_chargeable_transaction`, so they are one
`ChargeableTransaction`; the two coin inputs, the two message-coin inputs and the two
message-data inputs are matched by the same arms everywhere, so each pair is one
constructor. What only `fuel-tx` and `fuel-vm` read of a transaction (its script, witnesses
and policies) is its `body`.

The executor calls `fuel-tx` and `fuel-vm` for ids, checks, gas, fees and the virtual
machine itself. These are the fields of `Vm`, an argument of every function that uses them;
the relayer and the transaction source are arguments the same way.
-/

namespace FuelCore.Executor

abbrev Bytes32 := ℕ
abbrev TxId := Bytes32
abbrev ContractId := Bytes32
abbrev Nonce := Bytes32
abbrev Address := Bytes32
abbrev AssetId := Bytes32
abbrev MessageId := Bytes32
abbrev Word := UInt64
abbrev BlockHeight := UInt32
abbrev DaBlockHeight := UInt64
abbrev ConsensusParametersVersion := UInt32
/-- The `CheckError` of `fuel-tx`'s checks, by its code. -/
abbrev CheckError := ℕ
/-- The `ProgramState` a script ends in. -/
abbrev ProgramState := ℕ

structure UtxoId where
  txId : TxId
  outputIndex : UInt16
  deriving DecidableEq, Repr

structure TxPointer where
  blockHeight : BlockHeight
  txIndex : UInt16
  deriving DecidableEq, Repr

/-- `CompressedCoin`, the coin without its `UtxoId`. -/
structure CompressedCoin where
  owner : Address
  amount : Word
  assetId : AssetId
  txPointer : TxPointer
  deriving DecidableEq, Repr

structure Message where
  sender : Address
  recipient : Address
  nonce : Nonce
  amount : Word
  data : List UInt8
  daHeight : DaBlockHeight
  deriving DecidableEq, Repr

/-- `input::contract::Contract`. -/
structure InputContract where
  utxoId : UtxoId
  balanceRoot : Bytes32
  stateRoot : Bytes32
  txPointer : TxPointer
  contractId : ContractId
  deriving DecidableEq, Repr

/-- `output::contract::Contract`. -/
structure OutputContract where
  inputIndex : UInt16
  balanceRoot : Bytes32
  stateRoot : Bytes32
  deriving DecidableEq, Repr

inductive Input
  /-- `CoinSigned` or `CoinPredicate`. -/
  | coin (utxoId : UtxoId) (owner : Address) (amount : Word) (assetId : AssetId)
  | contract (contract : InputContract)
  /-- `MessageCoinSigned` or `MessageCoinPredicate`. -/
  | messageCoin (sender recipient : Address) (amount : Word) (nonce : Nonce)
  /-- `MessageDataSigned` or `MessageDataPredicate`. -/
  | messageData (sender recipient : Address) (amount : Word) (nonce : Nonce) (data : List UInt8)
  deriving DecidableEq, Repr

inductive Output
  | coin («to» : Address) (amount : Word) (assetId : AssetId)
  | contract (contract : OutputContract)
  | change («to» : Address) (amount : Word) (assetId : AssetId)
  | «variable» («to» : Address) (amount : Word) (assetId : AssetId)
  | contractCreated (contractId : ContractId)
  deriving DecidableEq, Repr

structure ChargeableTransaction where
  inputs : List Input
  outputs : List Output
  expiration : BlockHeight
  body : ℕ
  deriving DecidableEq, Repr

structure Mint where
  txPointer : TxPointer
  inputContract : InputContract
  outputContract : OutputContract
  mintAmount : Word
  mintAssetId : AssetId
  gasPrice : Word
  deriving DecidableEq, Repr

inductive Transaction
  | chargeable (tx : ChargeableTransaction)
  | mint (mint : Mint)
  deriving DecidableEq, Repr

def Transaction.isMint : Transaction → Bool
  | .mint _ => true
  | .chargeable _ => false

/-- A checked transaction is the transaction `fuel-tx`'s checks returned; its metadata is
what the fields of `Vm` compute from it. -/
inductive MaybeCheckedTransaction
  | checkedTransaction (tx : Transaction) (version : ConsensusParametersVersion)
  | transaction (tx : Transaction)
  deriving DecidableEq, Repr

namespace MaybeCheckedTransaction

def tx : MaybeCheckedTransaction → Transaction
  | .checkedTransaction tx _ | .transaction tx => tx

/-- A `Mint` never expires. -/
def expiration (maybeChecked : MaybeCheckedTransaction) : BlockHeight :=
  match maybeChecked.tx with
  | .mint _ => 0xFFFFFFFF
  | .chargeable tx => tx.expiration

end MaybeCheckedTransaction

inductive Receipt
  | scriptResult (gasUsed : Word)
  | messageOut (messageId : MessageId)
  /-- A receipt the executor does not read. -/
  | other (receipt : ℕ)
  deriving DecidableEq, Repr

def Receipt.messageId : Receipt → Option MessageId
  | .messageOut messageId => some messageId
  | _ => none

inductive TransactionExecutionResult
  | success (result : Option ProgramState) (receipts : List Receipt) (totalGas totalFee : Word)
  | failed (result : Option ProgramState) (receipts : List Receipt) (totalGas totalFee : Word)
  deriving DecidableEq, Repr

def TransactionExecutionResult.totalGas : TransactionExecutionResult → Word
  | .success _ _ totalGas _ | .failed _ _ totalGas _ => totalGas

def TransactionExecutionResult.totalFee : TransactionExecutionResult → Word
  | .success _ _ _ totalFee | .failed _ _ _ totalFee => totalFee

structure TransactionExecutionStatus where
  id : TxId
  result : TransactionExecutionResult
  deriving DecidableEq, Repr

/-! ## Errors -/

inductive TransactionValidityError
  | coinMismatch (utxoId : UtxoId)
  | coinDoesNotExist (utxoId : UtxoId)
  | messageSpendTooEarly (nonce : Nonce)
  | messageDoesNotExist (nonce : Nonce)
  | messageMismatch (nonce : Nonce)
  | contractDoesNotExist (contractId : ContractId)
  | invalidContractInputIndex (utxoId : UtxoId)
  | validation (error : CheckError)
  deriving DecidableEq, Repr

/-- The reason text of a `GasOverflow`. -/
inductive GasOverflowReason
  /-- "Transaction cannot fit in remaining gas limit: ({remaining_gas_limit})." -/
  | cannotFit (remainingGasLimit : Word)
  /-- "Execution used gas overflowed." -/
  | executionUsedGas
  /-- "Total used gas overflowed." -/
  | totalUsedGas
  deriving DecidableEq, Repr

inductive BlockHeaderError
  | tooManyTransactions
  | tooManyMessages
  deriving DecidableEq, Repr

/-- The variants of `ExecutorError` that the modelled functions raise or pass on. -/
inductive ExecutorError
  | transactionIdCollision (id : TxId)
  | tooManyTransactions
  | tooManyOutputs
  | outputAlreadyExists
  | feeOverflow
  | gasOverflow (reason : GasOverflowReason) (augend addend : Word)
  | txSizeOverflow
  | mintHasUnexpectedIndex
  | mintIsNotLastTransaction
  | mintMismatch
  | coinbaseCannotIncreaseBalance (error : String)
  | coinbaseAmountMismatch
  | coinbaseGasPriceMismatch
  | transactionValidity (error : TransactionValidityError)
  | relayerError (error : String)
  | vmExecution (error : String) (transactionId : TxId)
  | invalidTransaction (error : CheckError)
  | messageDoesNotExist (nonce : Nonce)
  | executingGenesisBlock
  | daHeightExceededItsLimit
  | previousBlockIsNotFound
  | relayerGivesIncorrectMessages
  | transactionExpired (expiration height : BlockHeight)
  | mintMissing
  | invalidTransactionOutcome (transactionId : TxId)
  | blockMismatch
  | blockHeaderError (error : BlockHeaderError)
  deriving DecidableEq, Repr

inductive ForcedTransactionFailure
  | codecError
  | checkError (error : CheckError)
  | invalidTransactionType
  | insufficientMaxGas (claimedMaxGas actualMaxGas : Word)
  deriving DecidableEq, Repr

/-- The `failure` text of a `ForcedTransactionFailed` event, by what renders it: the error of
the relayed transaction's execution, or the failure of its checks. -/
inductive ForcedFailure
  | execution (error : ExecutorError)
  | check (failure : ForcedTransactionFailure)
  deriving DecidableEq, Repr

/-- `executor::Event`; a `Coin` is its `UtxoId` and `CompressedCoin`. -/
inductive ExecutorEvent
  | messageImported (message : Message)
  | messageConsumed (message : Message)
  | coinCreated (utxoId : UtxoId) (coin : CompressedCoin)
  | coinConsumed (utxoId : UtxoId) (coin : CompressedCoin)
  | forcedTransactionFailed (id : Bytes32) (blockHeight : BlockHeight) (failure : ForcedFailure)
  deriving DecidableEq, Repr

/-! ## The execution data and the storage -/

/-- `ExecutionData`, without the storage changes that `produce_block` moves into it at the
end: the model returns the storage itself. -/
structure ExecutionData where
  coinbase : Word
  usedGas : Word
  usedSize : UInt32
  txCount : UInt16
  foundMint : Bool
  messageIds : List MessageId
  txStatus : List TransactionExecutionStatus
  events : List ExecutorEvent
  skippedTransactions : List (TxId × ExecutorError)
  eventInboxRoot : Bytes32
  deriving DecidableEq, Repr

def ExecutionData.new : ExecutionData :=
  ⟨0, 0, 0, 0, false, [], [], [], [], 0⟩

structure ContractUtxoInfo where
  utxoId : UtxoId
  txPointer : TxPointer
  deriving DecidableEq, Repr

/-- The columns the executor reads and writes. -/
structure Storage where
  coins : AList fun _ : UtxoId => CompressedCoin
  messages : AList fun _ : Nonce => Message
  processedTransactions : List TxId
  contractsLatestUtxo : AList fun _ : ContractId => ContractUtxoInfo
  /-- `FuelBlocks`, as far as it is read here: each block's DA height. -/
  fuelBlocks : AList fun _ : BlockHeight => DaBlockHeight
  /-- The contracts' code, balances and state, which only the virtual machine reads and
  writes, by column and key. -/
  vmColumns : AList fun _ : ℕ × Bytes32 => Bytes32

/-- `PartialBlockHeader`, as far as the executor reads it. -/
structure PartialBlockHeader where
  height : BlockHeight
  daHeight : DaBlockHeight
  consensusParametersVersion : ConsensusParametersVersion
  deriving DecidableEq, Repr

structure PartialFuelBlock where
  header : PartialBlockHeader
  transactions : List Transaction
  deriving DecidableEq, Repr

/-- `BlockHeader`, with each Merkle root stood for by what it is the root of: the
transactions, the outbox message ids and, as computed by the executor, the event inbox. -/
structure BlockHeader where
  height : BlockHeight
  daHeight : DaBlockHeight
  consensusParametersVersion : ConsensusParametersVersion
  transactionsCount : UInt16
  messageReceiptCount : UInt32
  transactionsRoot : List Transaction
  messageOutboxRoot : List MessageId
  eventInboxRoot : Bytes32
  deriving DecidableEq, Repr

structure Block where
  header : BlockHeader
  transactions : List Transaction
  deriving DecidableEq, Repr

/-! ## What the executor calls -/

/-- What `attempt_tx_execution_with_vm` returns, with the storage transaction the run left:
the script's changes committed unless it reverted. -/
structure VmOutcome where
  reverted : Bool
  state : ProgramState
  tx : ChargeableTransaction
  receipts : List Receipt
  storage : Storage

structure RelayedTransaction where
  id : Bytes32
  maxGas : Word
  serializedTransaction : List UInt8
  deriving DecidableEq, Repr

/-- The relayer's `Event`. -/
inductive RelayerEvent
  | message (message : Message)
  | transaction (relayedTx : RelayedTransaction)
  deriving DecidableEq, Repr

/-- `fuel-tx` and `fuel-vm` at the block's consensus parameters. -/
structure Vm where
  /-- `id(chain_id)`, the hash of the transaction. -/
  id : Transaction → TxId
  intoCheckedBasic : Transaction → BlockHeight → Except ExecutorError Transaction
  /-- `into_checked_reusable_memory`, the checks of a relayed transaction. -/
  intoChecked : Transaction → BlockHeight → Storage → Except CheckError Transaction
  /-- `Transaction::from_bytes`. -/
  fromBytes : List UInt8 → Option Transaction
  maxGas : Transaction → Except ExecutorError Word
  minGas : ChargeableTransaction → Word
  maxFeeLimit : ChargeableTransaction → Word
  /-- `refund_fee(gas_costs, fee_params, used_gas, gas_price)`. -/
  refundFee : ChargeableTransaction → Word → Word → Option Word
  /-- `metered_bytes_size()`, a `usize`. -/
  meteredBytesSize : ChargeableTransaction → ℕ
  /-- `check_predicates`, against the storage transaction. -/
  checkPredicates : ChargeableTransaction → Storage → Except ExecutorError ChargeableTransaction
  checkSignatures : ChargeableTransaction → Except ExecutorError ChargeableTransaction
  /-- The run of `attempt_tx_execution_with_vm`, from the checked transaction to the
  outcome, the storage transaction included. -/
  execute : ChargeableTransaction → PartialBlockHeader → ContractId → Word → Storage →
    Except ExecutorError VmOutcome
  /-- The virtual machine's part of `execute_mint_with_vm`: the coinbase contract's balance
  increased by the minted amount, and the mint's contract input and output with their roots. -/
  balanceIncrease : Mint → PartialBlockHeader → ContractId → Storage →
    Except ExecutorError (InputContract × OutputContract × Storage)
  /-- The root of the `MerkleRootCalculator` over the hashes of the relayer's events. -/
  eventInboxRoot : List RelayerEvent → Bytes32

/-- `RelayerPort`. -/
structure Relayer where
  enabled : Bool
  getEvents : DaBlockHeight → Except String (List RelayerEvent)

/-- `TransactionsSource`, over the state `σ` it keeps between calls: `next` takes the gas
limit, the count limit and the size limit. -/
structure TransactionsSource (σ : Type) where
  next : σ → Word → UInt16 → UInt32 → List MaybeCheckedTransaction × σ

/-- The consensus parameters the executor reads. -/
structure ConsensusParameters where
  blockGasLimit : Word
  blockTransactionSizeLimit : UInt64
  baseAssetId : AssetId

structure ExecutionOptions where
  forbidFakeCoins : Bool

structure BlockExecutor where
  relayer : Relayer
  consensusParams : ConsensusParameters
  options : ExecutionOptions
  vm : Vm

/-- `Components`: the header of the block to produce, the source of its transactions, the
coinbase recipient and the gas price. -/
structure Components (σ : Type) where
  headerToProduce : PartialBlockHeader
  transactionsSource : TransactionsSource σ
  coinbaseRecipient : ContractId
  gasPrice : Word

/-! ## The two kinds of call

A function that takes `&mut ExecutionData` and a storage transaction and returns an
`ExecutorResult` is an `ExecutionM`: its errors leave the state as the call changed it up to
the error, as Rust's `?` does. The block-level functions also change the partial block. -/

/-- A transaction's storage transaction and the block's execution data. -/
structure Executing where
  storage : Storage
  data : ExecutionData

/-- The block being produced, its storage transaction and its execution data. -/
structure Producing where
  block : PartialFuelBlock
  storage : Storage
  data : ExecutionData

abbrev ExecutionM := EStateM ExecutorError Executing

abbrev BlockM := EStateM ExecutorError Producing

end FuelCore.Executor
