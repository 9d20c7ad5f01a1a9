import FuelCore.TxPool.PoolSpec

/-! # The integrity of the pool over every run

`TestPoolUniverse::assert_pool_integrity` checks, after each test, that the map from ids,
the totals, the selection and the graph's caches agree with the graph. `Pool.Consistent`
holds of a new pool and after every call; here it is read back in the source's terms,
over the storage's `get`, together with the conflict-freedom the collision manager's
indexes give.
-/

namespace FuelCore.TxPool

open AList GraphStorage RatioTipGasSelection

namespace GraphStorage

variable (storage : GraphStorage)

theorem isIndexOf_pooled_iff {κ : Type} [DecidableEq κ] (keysOf : PoolTransaction → List κ)
    {index : AList fun _ : κ => NodeIndex}
    (exact : IsIndexOf (fun held => keysOf held.1) storage.pooled index) (key : κ)
    (owner : NodeIndex) :
    index.lookup key = some owner ↔
      ∃ data, storage.get owner = some data ∧ key ∈ keysOf data.transaction := by
  rw [exact key owner]
  constructor
  · rintro ⟨held, found, holds⟩
    obtain ⟨data, stored, rfl⟩ := Option.map_eq_some_iff.mp found
    exact ⟨data, stored, holds⟩
  · rintro ⟨data, stored, holds⟩
    exact ⟨data.identity, by simp [pooled, stored], holds⟩

theorem pooled_of_get {index : NodeIndex} {data : StorageData} (stored : storage.get index = some data) :
    storage.pooled index = some data.identity := by
  simp [pooled, stored]

end GraphStorage

/-- After every run of calls from a new pool, no two pooled transactions spend one coin or
one message, create one contract or carry one blob, and the collision manager maps each
such key to the node of the transaction that holds it. -/
theorem pooled_transactions_stay_conflict_free (graphConfig : GraphConfig) (config : Config)
    (calls : List Call) :
    let pool := runCalls (Pool.new (GraphStorage.new graphConfig) .new .new config) calls
    (∀ first second firstData secondData, first ≠ second →
      pool.storage.get first = some firstData → pool.storage.get second = some secondData →
        firstData.transaction.coinInputs.Disjoint secondData.transaction.coinInputs ∧
        firstData.transaction.messageInputs.Disjoint secondData.transaction.messageInputs ∧
        firstData.transaction.createdContracts.Disjoint
          secondData.transaction.createdContracts ∧
        firstData.transaction.blobIds.Disjoint secondData.transaction.blobIds) ∧
      (∀ utxoId index, pool.collisionManager.coinsSpenders.lookup utxoId = some index ↔
        ∃ data, pool.storage.get index = some data ∧ utxoId ∈ data.transaction.coinInputs) ∧
      (∀ nonce index, pool.collisionManager.messagesSpenders.lookup nonce = some index ↔
        ∃ data, pool.storage.get index = some data ∧ nonce ∈ data.transaction.messageInputs) ∧
      (∀ contractId index, pool.collisionManager.contractsCreators.lookup contractId = some index ↔
        ∃ data, pool.storage.get index = some data ∧
          contractId ∈ data.transaction.createdContracts) ∧
      (∀ blobId index, pool.collisionManager.blobsUsers.lookup blobId = some index ↔
        ∃ data, pool.storage.get index = some data ∧ blobId ∈ data.transaction.blobIds) := by
  intro pool
  have exact := ((Pool.consistent_new graphConfig config).runCalls calls).indexes
  refine ⟨?_, pool.storage.isIndexOf_pooled_iff _ exact.coinsSpenders,
    pool.storage.isIndexOf_pooled_iff _ exact.messagesSpenders,
    pool.storage.isIndexOf_pooled_iff _ exact.contractsCreators,
    pool.storage.isIndexOf_pooled_iff _ exact.blobsUsers⟩
  intro first second firstData secondData different firstStored secondStored
  have firstFound := pool.storage.pooled_of_get firstStored
  have secondFound := pool.storage.pooled_of_get secondStored
  exact ⟨exact.coinsSpenders.disjoint different firstFound secondFound,
    exact.messagesSpenders.disjoint different firstFound secondFound,
    exact.contractsCreators.disjoint different firstFound secondFound,
    exact.blobsUsers.disjoint different firstFound secondFound⟩

end FuelCore.TxPool
