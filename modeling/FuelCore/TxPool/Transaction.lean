import Mathlib.Data.List.Basic
import Mathlib.Algebra.GroupWithZero.Nat

/-! # Transactions as the pool sees them

`PoolTransaction` and `StorageData` of `services/txpool.rs` and `storage/mod.rs`, and
the errors of `error.rs` that the pool's own checks raise. A transaction keeps what the
pool reads of it: its id, its inputs and outputs, tip, max gas, metered size and max
gas price, and the blob id of a blob transaction. The two coin inputs and the four
message inputs are matched by the same arms everywhere in the pool, so each group is
one constructor.

The keys a transaction holds in the pool's indexes (the coins and messages it spends,
the contracts it creates, its coin outputs, its blob) are listed by the functions at
the end; the loops of the model go over the inputs and outputs as the source does.
-/

namespace FuelCore.TxPool

abbrev TxId := ℕ
abbrev ContractId := ℕ
abbrev Nonce := ℕ
abbrev BlobId := ℕ
/-- The `NodeIndex` of the dependency graph. -/
abbrev NodeIndex := ℕ

/-- `UtxoId`: the transaction that created the coin and its output index. -/
structure UtxoId where
  txId : TxId
  outputIndex : ℕ
  deriving DecidableEq, Repr

inductive Input
  /-- `CoinSigned` or `CoinPredicate`. -/
  | coin (utxoId : UtxoId)
  /-- `MessageCoinSigned`, `MessageCoinPredicate`, `MessageDataSigned` or
  `MessageDataPredicate`. -/
  | message (nonce : Nonce)
  | contract (contractId : ContractId)
  deriving DecidableEq, Repr

inductive Output
  | coin
  | change
  | «variable»
  | contract
  | contractCreated (contractId : ContractId)
  deriving DecidableEq, Repr

structure PoolTransaction where
  id : TxId
  inputs : List Input
  outputs : List Output
  tip : ℕ
  maxGas : ℕ
  meteredBytesSize : ℕ
  maxGasPrice : ℕ
  /-- The blob id of `PoolTransaction::Blob`; the other variants have none. -/
  blobId : Option BlobId
  deriving DecidableEq, Repr

def PoolTransaction.isBlob (tx : PoolTransaction) : Bool :=
  tx.blobId.isSome

/-- `StorageData`: a pooled transaction with the totals over it and its dependents. -/
structure StorageData where
  transaction : PoolTransaction
  dependentsCumulativeTip : ℕ
  dependentsCumulativeGas : ℕ
  dependentsCumulativeBytesSize : ℕ
  numberDependentsInChain : ℕ
  creationInstant : ℕ
  deriving DecidableEq, Repr

/-! ## Errors -/

inductive CollisionReason
  | utxo (utxoId : UtxoId)
  | contractCreation (contractId : ContractId)
  | blob (blobId : BlobId)
  | message (nonce : Nonce)
  | unknown
  | multipleCollisions
  deriving DecidableEq, Repr

inductive DependencyError
  | notInsertedCollisionIsDependency
  | notInsertedChainDependencyTooBig
  | dependentTransactionIsADiamondDeath
  | notInsertedDependentOnBlob
  deriving DecidableEq, Repr

/-- The variants of `InputValidationError` that the pool raises itself. -/
inductive InputValidationError
  | notInsertedBlobIdAlreadyTaken (blobId : BlobId)
  | maxGasZero
  | duplicateTxId (txId : TxId)
  deriving DecidableEq, Repr

inductive Error
  | blacklisted
  | collided (reason : CollisionReason)
  | inputValidation (error : InputValidationError)
  | dependency (error : DependencyError)
  | notInsertedLimitHit
  /-- What `validate_inputs` reports against the database, the extracted outputs and
  the spent inputs. -/
  | invalidInputs
  deriving DecidableEq, Repr

/-! ## The keys a transaction holds -/

namespace PoolTransaction

variable (tx : PoolTransaction)

def coinInputs : List UtxoId :=
  tx.inputs.filterMap fun
    | .coin utxoId => some utxoId
    | _ => none

def messageInputs : List Nonce :=
  tx.inputs.filterMap fun
    | .message nonce => some nonce
    | _ => none

def createdContracts : List ContractId :=
  tx.outputs.filterMap fun
    | .contractCreated contractId => some contractId
    | _ => none

/-- The coins the transaction creates: its `Output::Coin`s, by output index. -/
def coinOutputs : List UtxoId :=
  tx.outputs.zipIdx.filterMap fun
    | (.coin, index) => some ⟨tx.id, index⟩
    | _ => none

def blobIds : List BlobId :=
  tx.blobId.toList

theorem mem_coinOutputs {utxoId : UtxoId} (member : utxoId ∈ tx.coinOutputs) :
    utxoId.txId = tx.id := by
  simp only [coinOutputs, List.mem_filterMap] at member
  obtain ⟨⟨output, index⟩, _, produced⟩ := member
  cases output <;> simp at produced
  rw [← produced]

end PoolTransaction

end FuelCore.TxPool
