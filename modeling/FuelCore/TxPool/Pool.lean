import FuelCore.TxPool.CollisionManager
import FuelCore.TxPool.Selection

/-! # The pool

`pool.rs`: the pool keeps the dependency graph, the collision manager, the selection of
executable transactions, the map from transaction ids to graph nodes, and the gas and
bytes in use. Inserting a transaction evicts the transactions it collides with and, when
the pool is full, less worthy ones, each with its whole dependent subtree; a block takes
transactions out through the selection; committed and preconfirmed transactions leave
one at a time and their dependents may become executable; skipped, rolled back and
explicitly removed transactions take their dependents with them.

What the pool asks of its environment is an input of each call: the answers of the
database, the blacklist and `validate_inputs` on insertion, the creation instant, and
the contracts a preconfirmed transaction created (from `extracted_outputs`). The spent
inputs, the extracted outputs, the status notifications and the metrics feed only these
answers and are left out. Counters are natural numbers: a saturating subtraction is the
truncated one, and the sums of gas and bytes never reach `u64::MAX`.
-/

namespace FuelCore.TxPool

structure PoolLimits where
  maxTxs : ℕ
  maxGas : ℕ
  maxBytesSize : ℕ
  deriving DecidableEq, Repr

/-- The part of `Config` the pool's own logic reads. -/
structure Config where
  poolLimits : PoolLimits
  deriving DecidableEq, Repr

structure Pool where
  config : Config
  storage : GraphStorage
  collisionManager : BasicCollisionManager
  selectionAlgorithm : RatioTipGasSelection
  txIdToStorageId : AList fun _ : TxId => NodeIndex
  currentGas : ℕ
  currentBytesSize : ℕ

/-- What the environment answers when a transaction is inserted. -/
structure InsertEnvironment where
  /-- `spent_inputs.is_spent_tx` or `persistent_storage.contains_tx`. -/
  knownTx : Bool
  /-- `black_list.check_blacklisting` fails. -/
  blacklisted : Bool
  /-- `persistent_storage.blob_exist` for the blob of a blob transaction. -/
  blobExists : Bool
  /-- `validate_inputs` succeeds. -/
  inputsValid : Bool
  /-- `SystemTime::now()`. -/
  creationInstant : ℕ
  deriving DecidableEq, Repr

/-- `SpaceCheckResult`, with the fields of `NotEnoughSpace`. -/
inductive SpaceCheckResult
  | enoughSpace
  | notEnoughSpace (gasLeft bytesLeft txsLeft : ℕ)
  deriving DecidableEq, Repr

/-- `CanStoreTransaction` without its guard. -/
structure CanStoreTransaction where
  checkedTransaction : CheckedTransaction
  transactionsToRemove : List NodeIndex
  collisions : Collisions

/-! ## Collision requirements -/

/-- `is_better_than_collision`: the new transaction's tip per gas against the collided
subtree's. -/
def isBetterThanCollision (tx : PoolTransaction) (collision : NodeIndex)
    (storage : GraphStorage) : Except CollisionReason Bool :=
  match storage.get collision with
  | none => .error .unknown
  | some collidingTx =>
      .ok ((collidingTx.dependentsCumulativeTip : ℚ) / collidingTx.dependentsCumulativeGas <
        (tx.tip : ℚ) / tx.maxGas)

/-- The loop of `check_collision_requirements` over the collisions. -/
def checkEachCollision (tx : PoolTransaction) (storage : GraphStorage) :
    List (Σ _ : NodeIndex, List CollisionReason) → Except CollisionReason Unit
  | [] => .ok ()
  | ⟨collision, reason⟩ :: collisions =>
      match isBetterThanCollision tx collision storage with
      | .error error => .error error
      | .ok true => checkEachCollision tx storage collisions
      | .ok false => .error (reason.head?.getD .unknown)

/-- `check_collision_requirements`: a transaction with dependencies may replace one
transaction only, and it must be better than every collided subtree. -/
def checkCollisionRequirements (collisions : Collisions) (tx : PoolTransaction)
    (hasDependencies : Bool) (storage : GraphStorage) : Except CollisionReason Unit :=
  if hasDependencies ∧ 1 < collisions.entries.length then .error .multipleCollisions
  else checkEachCollision tx storage collisions.entries

namespace Pool

/-- `Pool::new`. -/
def new (storage : GraphStorage) (collisionManager : BasicCollisionManager)
    (selectionAlgorithm : RatioTipGasSelection) (config : Config) : Pool :=
  ⟨config, storage, collisionManager, selectionAlgorithm, ∅, 0, 0⟩

variable (pool : Pool)

/-! ## Removal -/

/-- `update_components_and_caches_on_removal`. -/
def updateComponentsAndCachesOnRemoval (removedTransactions : List StorageData) : Pool :=
  removedTransactions.foldl (fun pool storageEntry =>
    let tx := storageEntry.transaction
    { pool with
      currentGas := pool.currentGas - tx.maxGas
      currentBytesSize := pool.currentBytesSize - tx.meteredBytesSize
      txIdToStorageId := pool.txIdToStorageId.erase tx.id
      collisionManager := pool.collisionManager.onRemovedTransaction tx
      selectionAlgorithm := pool.selectionAlgorithm.onRemovedTransaction storageEntry }) pool

/-- Remove a transaction with its dependent subtree and update the components, as every
eviction of the pool does. -/
def removeSubtree (root : NodeIndex) : Pool :=
  let removed := pool.storage.removeTransactionAndDependentsSubtree root
  ({ pool with storage := removed.1 } : Pool).updateComponentsAndCachesOnRemoval removed.2

/-! ## Insertion -/

/-- `can_fit_into_pool`. -/
def canFitIntoPool (checkedTransaction : CheckedTransaction) : Except Error SpaceCheckResult :=
  let tx := checkedTransaction.tx
  let gasLeft := pool.currentGas + tx.maxGas
  let bytesLeft := pool.currentBytesSize + tx.meteredBytesSize
  let txsLeft := pool.txIdToStorageId.entries.length + 1
  let limits := pool.config.poolLimits
  if gasLeft ≤ limits.maxGas ∧ bytesLeft ≤ limits.maxBytesSize ∧ txsLeft ≤ limits.maxTxs then
    .ok .enoughSpace
  else if !checkedTransaction.allDependencies.isEmpty then .error .notInsertedLimitHit
  else .ok (.notEnoughSpace gasLeft bytesLeft txsLeft)

/-- The loop of `find_free_space` over the executable transactions, the least worthy
first, while the pool is over a limit. -/
def findFreeSpaceLoop (checkedTransaction : CheckedTransaction) (newTxRatio : ℚ) :
    List NodeIndex → ℕ → ℕ → ℕ → List NodeIndex → Except Error (List NodeIndex)
  | sortedTxs, gasLeft, bytesLeft, txsLeft, transactionsToRemove =>
      let limits := pool.config.poolLimits
      if limits.maxGas < gasLeft ∨ limits.maxBytesSize < bytesLeft ∨ limits.maxTxs < txsLeft then
        match sortedTxs with
        | [] => .error .notInsertedLimitHit
        | storageId :: sortedTxs =>
            if storageId ∈ checkedTransaction.allDependencies then
              findFreeSpaceLoop checkedTransaction newTxRatio sortedTxs gasLeft bytesLeft txsLeft
                transactionsToRemove
            else
              match pool.storage.get storageId with
              | none =>
                  findFreeSpaceLoop checkedTransaction newTxRatio sortedTxs gasLeft bytesLeft
                    txsLeft transactionsToRemove
              | some storageData =>
                  let ratio := (storageData.dependentsCumulativeTip : ℚ) /
                    storageData.dependentsCumulativeGas
                  if newTxRatio < ratio then .error .notInsertedLimitHit
                  else
                    findFreeSpaceLoop checkedTransaction newTxRatio sortedTxs
                      (gasLeft - storageData.dependentsCumulativeGas)
                      (bytesLeft - storageData.dependentsCumulativeBytesSize)
                      (txsLeft - storageData.numberDependentsInChain)
                      (transactionsToRemove ++ [storageId])
      else .ok transactionsToRemove

/-- `find_free_space`. -/
def findFreeSpace (gasLeft bytesLeft txsLeft : ℕ) (checkedTransaction : CheckedTransaction) :
    Except Error (List NodeIndex) :=
  let tx := checkedTransaction.tx
  pool.findFreeSpaceLoop checkedTransaction ((tx.tip : ℚ) / tx.maxGas)
    pool.selectionAlgorithm.getLessWorthTxs gasLeft bytesLeft txsLeft []

/-- `can_insert_transaction`. -/
def canInsertTransaction (tx : PoolTransaction) (environment : InsertEnvironment) :
    Except Error CanStoreTransaction :=
  if tx.maxGas = 0 then .error (.inputValidation .maxGasZero)
  else if tx.id ∈ pool.txIdToStorageId then .error (.inputValidation (.duplicateTxId tx.id))
  else if environment.blacklisted then .error .blacklisted
  else
    match tx.blobId, environment.blobExists with
    | some blobId, true => .error (.inputValidation (.notInsertedBlobIdAlreadyTaken blobId))
    | _, _ =>
      if !environment.inputsValid then .error .invalidInputs
      else
        match pool.collisionManager.findCollisions tx with
        | .error error => .error error
        | .ok collisions =>
          match pool.storage.canStoreTransaction tx with
          | .error error => .error error
          | .ok checkedTransaction =>
            if collisions.keys.any (· ∈ checkedTransaction.allDependencies) then
              .error (.dependency .notInsertedCollisionIsDependency)
            else
              let hasDependencies := !checkedTransaction.allDependencies.isEmpty
              match checkCollisionRequirements collisions tx hasDependencies pool.storage with
              | .error reason => .error (.collided reason)
              | .ok () =>
                match pool.canFitIntoPool checkedTransaction with
                | .error error => .error error
                | .ok .enoughSpace => .ok ⟨checkedTransaction, [], collisions⟩
                | .ok (.notEnoughSpace gasLeft bytesLeft txsLeft) =>
                    match pool.findFreeSpace gasLeft bytesLeft txsLeft checkedTransaction with
                    | .error error => .error error
                    | .ok transactionsToRemove =>
                        .ok ⟨checkedTransaction, transactionsToRemove, collisions⟩

/-- The second half of `insert_inner`: store the checked transaction once the evictions
are done. -/
def storeChecked (checkedTransaction : CheckedTransaction) (creationInstant : ℕ) : Pool :=
  let hasDependencies := !checkedTransaction.allDependencies.isEmpty
  let tx := checkedTransaction.tx
  let stored := pool.storage.storeTransaction checkedTransaction creationInstant
  let storageId := stored.2
  let pool := { pool with
    storage := stored.1
    currentGas := pool.currentGas + tx.maxGas
    currentBytesSize := pool.currentBytesSize + tx.meteredBytesSize
    txIdToStorageId := pool.txIdToStorageId.insert tx.id storageId }
  -- `expect("Transaction is set above")`
  match pool.storage.get storageId with
  | none => pool
  | some entry =>
      let pool := { pool with
        collisionManager := pool.collisionManager.onStoredTransaction storageId entry }
      if !hasDependencies then
        { pool with
          selectionAlgorithm := pool.selectionAlgorithm.newExecutableTransaction storageId entry }
      else pool

/-- `insert_inner`: evict what must go, then store. -/
def insertInner (tx : PoolTransaction) (environment : InsertEnvironment) :
    Pool × Except Error Unit :=
  match pool.canInsertTransaction tx environment with
  | .error error => (pool, .error error)
  | .ok ⟨checkedTransaction, transactionsToRemove, collisions⟩ =>
      let pool := transactionsToRemove.foldl removeSubtree pool
      let pool := collisions.keys.foldl removeSubtree pool
      (pool.storeChecked checkedTransaction environment.creationInstant, .ok ())

def insert (tx : PoolTransaction) (environment : InsertEnvironment) : Pool × Except Error Unit :=
  if environment.knownTx then (pool, .error (.inputValidation (.duplicateTxId tx.id)))
  else pool.insertInner tx environment

/-! ## Blocks and commits -/

/-- `extract_transactions_for_block`. -/
def extractTransactionsForBlock (constraints : Constraints) : Pool × List StorageData :=
  let gathered := pool.selectionAlgorithm.gatherBestTxs constraints pool.storage
  let pool := { pool with selectionAlgorithm := gathered.1, storage := gathered.2.1 }
  (pool.updateComponentsAndCachesOnRemoval gathered.2.2, gathered.2.2)

/-- Make the dependents of a removed transaction that have no dependency left executable. -/
def promoteDependents (dependents : List NodeIndex) : Pool :=
  dependents.foldl (fun pool dependent =>
    if !pool.storage.hasDependencies dependent then
      match pool.storage.get dependent with
      | some storageData =>
          { pool with
            selectionAlgorithm :=
              pool.selectionAlgorithm.newExecutableTransaction dependent storageData }
      | none => pool
    else pool) pool

/-- `process_preconfirmed_committed_transaction`. -/
def processPreconfirmedCommittedTransaction (txId : TxId) : Pool :=
  match pool.txIdToStorageId.lookup txId with
  | none => pool
  | some storageId =>
      let pool := { pool with txIdToStorageId := pool.txIdToStorageId.erase txId }
      let dependents := pool.storage.getDirectDependents storageId
      match pool.storage.removeTransaction storageId with
      | (_, none) => pool
      | (storage, some transaction) =>
          let pool := ({ pool with storage } : Pool).updateComponentsAndCachesOnRemoval [transaction]
          pool.promoteDependents dependents

/-- The first loop of `process_committed_transactions`: remove each committed
transaction alone and collect the dependents left without dependency. -/
def removeCommitted : List TxId → Pool → List NodeIndex → Pool × List NodeIndex
  | [], pool, transactionsToPromote => (pool, transactionsToPromote)
  | txId :: txIds, pool, transactionsToPromote =>
      match pool.txIdToStorageId.lookup txId with
      | none => removeCommitted txIds pool transactionsToPromote
      | some storageId =>
          let pool := { pool with txIdToStorageId := pool.txIdToStorageId.erase txId }
          let dependents := pool.storage.getDirectDependents storageId
          match pool.storage.removeTransaction storageId with
          | (_, none) => removeCommitted txIds pool transactionsToPromote
          | (storage, some transaction) =>
              let pool :=
                ({ pool with storage } : Pool).updateComponentsAndCachesOnRemoval [transaction]
              removeCommitted txIds pool (transactionsToPromote ++
                dependents.filter fun dependent => !pool.storage.hasDependencies dependent)

/-- `process_committed_transactions`: the collected dependents become executable at the
end; one committed later in the same call is no longer in the graph and is skipped. -/
def processCommittedTransactions (txIds : List TxId) : Pool :=
  let removed := removeCommitted txIds pool []
  let pool := removed.1
  removed.2.foldl (fun pool promote =>
    match pool.storage.get promote with
    | some storageData =>
        { pool with
          selectionAlgorithm := pool.selectionAlgorithm.newExecutableTransaction promote storageData }
    | none => pool) pool

/-! ## Removals with dependents -/

/-- `remove_transactions_and_dependents`. -/
def removeTransactionsAndDependents (txIds : List TxId) : Pool :=
  txIds.foldl (fun pool txId =>
    match pool.txIdToStorageId.lookup txId with
    | none => pool
    | some storageId =>
        ({ pool with txIdToStorageId := pool.txIdToStorageId.erase txId } : Pool).removeSubtree
          storageId) pool

/-- `remove_skipped_transaction`. -/
def removeSkippedTransaction (txId : TxId) : Pool :=
  let pool := if txId ∈ pool.txIdToStorageId then pool.removeTransactionsAndDependents [txId]
    else pool
  (pool.collisionManager.getCoinsSpenders txId).foldl removeSubtree pool

/-- `rollback_preconfirmed_transaction`, given the contracts the preconfirmation created. -/
def rollbackPreconfirmedTransaction (txId : TxId) (createdContracts : List ContractId) : Pool :=
  let pool := (pool.collisionManager.getCoinsSpenders txId).foldl removeSubtree pool
  createdContracts.foldl (fun pool contractId =>
    if pool.collisionManager.contractCreatedInPool contractId then pool
    else
      (pool.collisionManager.getContractUsers contractId).foldl (fun pool userTxId =>
        match pool.txIdToStorageId.lookup userTxId with
        | none => pool
        | some storageId => pool.removeSubtree storageId) pool) pool

end Pool

/-! ## Runs -/

/-- A call of the pool's public API. -/
inductive Call
  | insert (tx : PoolTransaction) (environment : InsertEnvironment)
  | extractTransactionsForBlock (constraints : Constraints)
  | processCommittedTransactions (txIds : List TxId)
  | processPreconfirmedCommittedTransaction (txId : TxId)
  | removeTransactionsAndDependents (txIds : List TxId)
  | removeSkippedTransaction (txId : TxId)
  | rollbackPreconfirmedTransaction (txId : TxId) (createdContracts : List ContractId)

def Call.run (pool : Pool) : Call → Pool
  | .insert tx environment => (pool.insert tx environment).1
  | .extractTransactionsForBlock constraints => (pool.extractTransactionsForBlock constraints).1
  | .processCommittedTransactions txIds => pool.processCommittedTransactions txIds
  | .processPreconfirmedCommittedTransaction txId => pool.processPreconfirmedCommittedTransaction txId
  | .removeTransactionsAndDependents txIds => pool.removeTransactionsAndDependents txIds
  | .removeSkippedTransaction txId => pool.removeSkippedTransaction txId
  | .rollbackPreconfirmedTransaction txId createdContracts =>
      pool.rollbackPreconfirmedTransaction txId createdContracts

def runCalls (pool : Pool) (calls : List Call) : Pool :=
  calls.foldl Call.run pool

end FuelCore.TxPool
