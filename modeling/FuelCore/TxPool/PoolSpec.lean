import FuelCore.TxPool.Pool
import FuelCore.TxPool.SelectionSpec

/-! # The components of the pool stay in lock-step

The pool keeps four views of the transactions its graph holds: the map from ids to
nodes, the collision manager's indexes of the coins, messages, contracts and blobs they
use or create, the selection of the executable ones, and the totals of gas and bytes.
`Consistent` says that all of them, and the graph's own caches, are exact for what the
graph holds. Every public operation keeps it: removals take each removed node out of
every view, insertion puts the new node into every view once the collided and evicted
subtrees are gone, and the nodes a removal leaves without dependency are made executable
before the operation returns.
-/

namespace FuelCore.TxPool

open AList GraphStorage RatioTipGasSelection

namespace Pool

/-- The pool's indexes over what `owners` holds, and its selection over what `executable`
holds. -/
structure IndexesExact (pool : Pool) (owners executable : NodeIndex → Option (PoolTransaction × ℕ)) :
    Prop where
  txIds : IsIndexOf (fun held => [held.1.id]) owners pool.txIdToStorageId
  selection : Holds executable pool.selectionAlgorithm
  coinsSpenders : IsIndexOf (·.1.coinInputs) owners pool.collisionManager.coinsSpenders
  messagesSpenders : IsIndexOf (·.1.messageInputs) owners pool.collisionManager.messagesSpenders
  contractsCreators : IsIndexOf (·.1.createdContracts) owners pool.collisionManager.contractsCreators
  blobsUsers : IsIndexOf (·.1.blobIds) owners pool.collisionManager.blobsUsers

/-- The pool's components agree with its graph, the selection holding what `executable`
holds. -/
structure Tracked (pool : Pool) (executable : NodeIndex → Option (PoolTransaction × ℕ)) :
    Prop where
  indexes : pool.IndexesExact pool.storage.pooled executable
  caches : pool.storage.CachesExact
  currentGas : pool.currentGas = total (·.transaction.maxGas) pool.storage.graph.nodes
  currentBytesSize :
    pool.currentBytesSize = total (·.transaction.meteredBytesSize) pool.storage.graph.nodes

/-- The relation `assert_pool_integrity` checks, with the collision manager's indexes exact
as well: the selection holds the executable nodes. -/
structure Consistent (pool : Pool) : Prop extends pool.Tracked pool.storage.executable

variable (pool : Pool)

/-! ## Removing transactions from the components -/

theorem updateComponentsAndCachesOnRemoval_eq (removed : List StorageData) :
    pool.updateComponentsAndCachesOnRemoval removed =
      { pool with
        currentGas := pool.currentGas - (removed.map (·.transaction.maxGas)).sum
        currentBytesSize :=
          pool.currentBytesSize - (removed.map (·.transaction.meteredBytesSize)).sum
        txIdToStorageId := eraseKeys (removed.map (·.transaction.id)) pool.txIdToStorageId
        collisionManager := removed.foldl (fun manager storageEntry =>
          manager.onRemovedTransaction storageEntry.transaction) pool.collisionManager
        selectionAlgorithm :=
          ⟨eraseKeys (removed.map key) pool.selectionAlgorithm.executableTransactionsSortedTipGasRatio⟩ } := by
  induction removed generalizing pool with
  | nil => simp [updateComponentsAndCachesOnRemoval]
  | cons storageEntry removed induction =>
      rw [updateComponentsAndCachesOnRemoval, List.foldl_cons, ← updateComponentsAndCachesOnRemoval,
        induction]
      simp only [List.map_cons, List.sum_cons, Nat.sub_sub, eraseKeys_cons, List.foldl_cons]
      rfl

@[simp] theorem updateComponentsAndCachesOnRemoval_storage (removed : List StorageData) :
    (pool.updateComponentsAndCachesOnRemoval removed).storage = pool.storage := by
  rw [updateComponentsAndCachesOnRemoval_eq]

theorem foldl_onRemovedTransaction (removed : List StorageData) (manager : BasicCollisionManager) :
    let removedManager := removed.foldl (fun manager storageEntry =>
      manager.onRemovedTransaction storageEntry.transaction) manager
    removedManager.coinsSpenders =
        eraseKeys (removed.flatMap (·.transaction.coinInputs)) manager.coinsSpenders ∧
      removedManager.messagesSpenders =
        eraseKeys (removed.flatMap (·.transaction.messageInputs)) manager.messagesSpenders ∧
      removedManager.contractsCreators =
        eraseKeys (removed.flatMap (·.transaction.createdContracts)) manager.contractsCreators ∧
      removedManager.blobsUsers =
        eraseKeys (removed.flatMap (·.transaction.blobIds)) manager.blobsUsers :=
  ⟨foldl_eraseKeys _ _ _ (fun manager _ => manager.onRemovedTransaction_coinsSpenders _) _ _,
    foldl_eraseKeys _ _ _ (fun manager _ => manager.onRemovedTransaction_messagesSpenders _) _ _,
    foldl_eraseKeys _ _ _ (fun manager _ => manager.onRemovedTransaction_contractsCreators _) _ _,
    foldl_eraseKeys _ _ _ (fun manager _ => manager.onRemovedTransaction_blobsUsers _) _ _⟩

section Indexes

variable {pool} {owners executable : NodeIndex → Option (PoolTransaction × ℕ)}

theorem IndexesExact.withStorage (exact : pool.IndexesExact owners executable)
    (storage : GraphStorage) : ({ pool with storage } : Pool).IndexesExact owners executable :=
  ⟨exact.txIds, exact.selection, exact.coinsSpenders, exact.messagesSpenders,
    exact.contractsCreators, exact.blobsUsers⟩

theorem isIndexOf_remove {κ : Type} [DecidableEq κ] {keysOf : PoolTransaction × ℕ → List κ}
    {index : AList fun _ : κ => NodeIndex} {owners : NodeIndex → Option (PoolTransaction × ℕ)}
    (exact : IsIndexOf keysOf owners index) (removed : List (NodeIndex × StorageData))
    (found : ∀ entry ∈ removed, owners entry.1 = some entry.2.identity) :
    IsIndexOf keysOf (fun index => if index ∈ removed.map Prod.fst then none else owners index)
      (eraseKeys ((removed.map Prod.snd).flatMap fun storageEntry => keysOf storageEntry.identity)
        index) := by
  have erased := exact.eraseFound (removed.map fun entry => (entry.1, entry.2.identity)) (by
    intro entry listed
    obtain ⟨removedEntry, member, rfl⟩ := List.mem_map.mp listed
    exact found removedEntry member)
  simp only [List.map_map, List.flatMap_map] at erased ⊢
  exact erased

theorem IndexesExact.remove (exact : pool.IndexesExact owners executable)
    (below : ∀ index held, executable index = some held → owners index = some held)
    (removed : List (NodeIndex × StorageData))
    (found : ∀ entry ∈ removed, owners entry.1 = some entry.2.identity) :
    (pool.updateComponentsAndCachesOnRemoval (removed.map Prod.snd)).IndexesExact
      (fun index => if index ∈ removed.map Prod.fst then none else owners index)
      (fun index => if index ∈ removed.map Prod.fst then none else executable index) := by
  have covers : ∀ entry ∈ removed.map (fun entry => (entry.1, entry.2.identity)),
      ∀ held, executable entry.1 = some held → ∀ key ∈ [keyOf held], key ∈ [keyOf entry.2] := by
    intro entry listed held executableHeld key keyed
    obtain ⟨removedEntry, member, rfl⟩ := List.mem_map.mp listed
    have ownerHeld := below _ held executableHeld
    rw [found removedEntry member, Option.some.injEq] at ownerHeld
    rw [ownerHeld]
    exact keyed
  have unique : ∀ entry ∈ removed.map (fun entry => (entry.1, entry.2.identity)),
      ∀ key ∈ [keyOf entry.2], ∀ holder held, executable holder = some held →
        key ∈ [keyOf held] → holder = entry.1 := by
    intro entry listed key keyed holder held executableHeld holderKeyed
    obtain ⟨removedEntry, member, rfl⟩ := List.mem_map.mp listed
    rw [List.mem_singleton] at keyed holderKeyed
    have sameId := id_eq_of_keyOf_eq (holderKeyed.symm.trans keyed)
    exact exact.txIds.owner_unique (below holder held executableHeld) (by simp [sameId])
      (found removedEntry member) (List.mem_singleton_self _)
  obtain ⟨coins, messages, contracts, blobs⟩ :=
    foldl_onRemovedTransaction (removed.map Prod.snd) pool.collisionManager
  rw [updateComponentsAndCachesOnRemoval_eq]
  refine ⟨?_, ?_, ?_, ?_, ?_, ?_⟩
  · apply (isIndexOf_remove exact.txIds removed found).lookup_congr
    apply lookup_eraseKeys_congr
    intro key
    simp only [List.mem_map, List.mem_flatMap, List.mem_singleton]
    constructor
    · rintro ⟨storageEntry, found, rfl⟩
      exact ⟨storageEntry, found, rfl⟩
    · rintro ⟨storageEntry, found, rfl⟩
      exact ⟨storageEntry, found, rfl⟩
  · have erased := exact.selection.eraseOwners _ covers unique
    simp only [List.map_map] at erased
    apply erased.lookup_congr
    apply lookup_eraseKeys_congr
    intro key
    simp only [List.mem_map, List.mem_flatMap, List.mem_singleton]
    constructor
    · rintro ⟨storageEntry, ⟨entry, listed, rfl⟩, rfl⟩
      exact ⟨_, ⟨entry, listed, rfl⟩, rfl⟩
    · rintro ⟨held, ⟨entry, listed, rfl⟩, rfl⟩
      exact ⟨entry.2, ⟨entry, listed, rfl⟩, rfl⟩
  · rw [coins]
    exact isIndexOf_remove exact.coinsSpenders removed found
  · rw [messages]
    exact isIndexOf_remove exact.messagesSpenders removed found
  · rw [contracts]
    exact isIndexOf_remove exact.contractsCreators removed found
  · rw [blobs]
    exact isIndexOf_remove exact.blobsUsers removed found

theorem IndexesExact.owner_of_holdsKeyOf (exact : pool.IndexesExact owners executable)
    {transaction : PoolTransaction} {holder : NodeIndex}
    (holds : pool.collisionManager.HoldsKeyOf transaction holder) :
    ∃ held, owners holder = some held := by
  rcases holds with ⟨key, -, found⟩ | ⟨key, -, found⟩ | ⟨key, -, found⟩ | ⟨key, -, found⟩
  · exact ((exact.coinsSpenders key holder).mp found).imp fun _ => And.left
  · exact ((exact.messagesSpenders key holder).mp found).imp fun _ => And.left
  · exact ((exact.contractsCreators key holder).mp found).imp fun _ => And.left
  · exact ((exact.blobsUsers key holder).mp found).imp fun _ => And.left

theorem IndexesExact.holdsKeyOf_of_le (exact : pool.IndexesExact owners executable)
    {pool' : Pool} {owners' executable' : NodeIndex → Option (PoolTransaction × ℕ)}
    (exact' : pool'.IndexesExact owners' executable')
    (below : ∀ owner held, owners' owner = some held → owners owner = some held)
    {transaction : PoolTransaction} {holder : NodeIndex}
    (holds : pool'.collisionManager.HoldsKeyOf transaction holder) :
    pool.collisionManager.HoldsKeyOf transaction holder := by
  rcases holds with ⟨key, member, found⟩ | ⟨key, member, found⟩ | ⟨key, member, found⟩ |
    ⟨key, member, found⟩
  · exact .inl ⟨key, member, exact.coinsSpenders.lookup_of_le exact'.coinsSpenders below found⟩
  · exact .inr (.inl ⟨key, member,
      exact.messagesSpenders.lookup_of_le exact'.messagesSpenders below found⟩)
  · exact .inr (.inr (.inl ⟨key, member,
      exact.contractsCreators.lookup_of_le exact'.contractsCreators below found⟩))
  · exact .inr (.inr (.inr ⟨key, member,
      exact.blobsUsers.lookup_of_le exact'.blobsUsers below found⟩))

end Indexes

/-! ## Removing subtrees -/

theorem removeSubtree_storage (root : NodeIndex) :
    (pool.removeSubtree root).storage = (pool.storage.removeTransactionAndDependentsSubtree root).1 := by
  rw [removeSubtree, updateComponentsAndCachesOnRemoval_eq]

theorem removeSubtree_txIdToStorageId (root : NodeIndex) :
    (pool.removeSubtree root).txIdToStorageId =
      eraseKeys ((pool.storage.removeTransactionAndDependentsSubtree root).2.map (·.transaction.id))
        pool.txIdToStorageId := by
  rw [removeSubtree, updateComponentsAndCachesOnRemoval_eq]

theorem mem_removeTransactionAndDependentsSubtree_ids (storage : GraphStorage) {root : NodeIndex}
    {held : PoolTransaction × ℕ} (found : storage.pooled root = some held) :
    held.1.id ∈ (storage.removeTransactionAndDependentsSubtree root).2.map (·.transaction.id) := by
  obtain ⟨removed, results, subtree⟩ := storage.removeTransactionAndDependentsSubtree_removedSubtree root
  have present : root ∈ storage.graph.nodes := by
    rw [← isSome_pooled, found]
    rfl
  obtain ⟨entry, listed, same⟩ := List.mem_map.mp (subtree.rootRemoved present)
  have entryFound := subtree.removedNodes.found entry listed
  rw [same, found, Option.some.injEq] at entryFound
  rw [results, List.map_map, entryFound]
  exact List.mem_map_of_mem listed

/-- The components after a removal of nodes, found in the graph as it was, whose
indexes still include them: erasing the removed nodes' keys and shares leaves them in
agreement with the graph. -/
theorem Tracked.updateComponentsAndCachesOnRemoval {pool : Pool} {storage : GraphStorage}
    {removed : List (NodeIndex × StorageData)}
    {executable : NodeIndex → Option (PoolTransaction × ℕ)}
    (removal : RemovedNodes storage pool.storage removed)
    (exact : pool.IndexesExact storage.pooled executable)
    (below : ∀ index held, executable index = some held → storage.pooled index = some held)
    (caches : storage.CachesExact)
    (currentGas : pool.currentGas = total (·.transaction.maxGas) storage.graph.nodes)
    (currentBytesSize :
      pool.currentBytesSize = total (·.transaction.meteredBytesSize) storage.graph.nodes) :
    (pool.updateComponentsAndCachesOnRemoval (removed.map Prod.snd)).Tracked
      (fun index => if index ∈ removed.map Prod.fst then none else executable index) := by
  have removedExact := exact.remove below removed removal.found
  have pooledAfter : (fun index => if index ∈ removed.map Prod.fst then none
      else storage.pooled index) = pool.storage.pooled :=
    funext fun index => (removal.pooled index).symm
  rw [pooledAfter] at removedExact
  have gasShares := removal.total_add (·.maxGas)
  have bytesShares := removal.total_add (·.meteredBytesSize)
  refine ⟨?_, ?_, ?_, ?_⟩
  · rw [updateComponentsAndCachesOnRemoval_storage]
    exact removedExact
  all_goals rw [updateComponentsAndCachesOnRemoval_eq]
  · exact removal.caches caches
  · simp only [List.map_map, Function.comp_def, currentGas] at gasShares ⊢
    omega
  · simp only [List.map_map, Function.comp_def, currentBytesSize] at bytesShares ⊢
    omega

theorem Consistent.updateComponentsAndCachesOnRemoval {pool : Pool} {storage : GraphStorage}
    {removed : List (NodeIndex × StorageData)}
    {executable : NodeIndex → Option (PoolTransaction × ℕ)}
    (removal : RemovedNodes storage pool.storage removed)
    (exact : pool.IndexesExact storage.pooled executable)
    (below : ∀ index held, executable index = some held → storage.pooled index = some held)
    (kept : ∀ index ∉ removed.map Prod.fst, executable index = pool.storage.executable index)
    (caches : storage.CachesExact)
    (currentGas : pool.currentGas = total (·.transaction.maxGas) storage.graph.nodes)
    (currentBytesSize :
      pool.currentBytesSize = total (·.transaction.meteredBytesSize) storage.graph.nodes) :
    (pool.updateComponentsAndCachesOnRemoval (removed.map Prod.snd)).Consistent := by
  have tracked :=
    Tracked.updateComponentsAndCachesOnRemoval removal exact below caches currentGas currentBytesSize
  have executableAfter : (fun index => if index ∈ removed.map Prod.fst then none
      else executable index) = pool.storage.executable := by
    funext index
    split_ifs with gone
    · have absent := (pooled_eq_none _).mpr (removal.absent gone)
      simp [GraphStorage.executable, absent]
    · exact kept index gone
  rw [executableAfter, ← updateComponentsAndCachesOnRemoval_storage pool (removed.map Prod.snd)]
    at tracked
  exact ⟨tracked⟩

theorem Tracked.idsDistinct {pool : Pool} {executable : NodeIndex → Option (PoolTransaction × ℕ)}
    (tracked : pool.Tracked executable) : pool.storage.IdsDistinct := by
  intro first second held held' firstFound secondFound sameId
  exact tracked.indexes.txIds.owner_unique firstFound (List.mem_singleton_self _) secondFound
    (by simp [sameId])

namespace Consistent

variable {pool}

theorem withTxIds (consistent : pool.Consistent) {txIdToStorageId : AList fun _ : TxId => NodeIndex}
    (same : ∀ txId, txIdToStorageId.lookup txId = pool.txIdToStorageId.lookup txId) :
    ({ pool with txIdToStorageId } : Pool).Consistent :=
  ⟨{ consistent.indexes with txIds := consistent.indexes.txIds.lookup_congr same },
    consistent.caches, consistent.currentGas, consistent.currentBytesSize⟩

theorem removeSubtree (consistent : pool.Consistent) (root : NodeIndex) :
    (pool.removeSubtree root).Consistent := by
  obtain ⟨removed, results, subtree⟩ := pool.storage.removeTransactionAndDependentsSubtree_removedSubtree root
  rw [Pool.removeSubtree, results]
  exact updateComponentsAndCachesOnRemoval subtree.removedNodes
    (consistent.indexes.withStorage _) (fun _ _ found => ((executable_eq_some _).mp found).2)
    (fun _ gone => (subtree.executable gone).symm) consistent.caches consistent.currentGas
    consistent.currentBytesSize

/-- Taking the nodes a block gathered out of the indexes: the selection already let them
go. -/
theorem extractTransactionsForBlock (consistent : pool.Consistent) (constraints : Constraints) :
    (pool.extractTransactionsForBlock constraints).1.Consistent := by
  obtain ⟨removed, holds, removal, results⟩ :=
    gatherBestTxs_exact constraints consistent.indexes.selection
      consistent.idsDistinct
  rw [Pool.extractTransactionsForBlock, results]
  refine updateComponentsAndCachesOnRemoval removal
    { consistent.indexes with selection := holds } ?_ (fun _ _ => rfl) consistent.caches
    consistent.currentGas consistent.currentBytesSize
  intro index held found
  exact removal.pooled_of_some ((executable_eq_some _).mp found).2

end Consistent

/-- `pool'` is `pool` after evicting the subtrees of `roots`: what stays is as it was, and
every node gone was below one of the roots, which are all gone. -/
structure Evicted (pool pool' : Pool) (roots : List NodeIndex) : Prop where
  pooled : ∀ index held, pool'.storage.pooled index = some held → pool.storage.pooled index = some held
  edges : ∀ edge ∈ pool'.storage.graph.edges, edge ∈ pool.storage.graph.edges
  below : ∀ index ∈ pool.storage.graph.nodes, index ∉ pool'.storage.graph.nodes →
    ∃ root ∈ roots, pool.storage.graph.Reaches root index
  rootsGone : ∀ root ∈ roots, root ∉ pool'.storage.graph.nodes

section Evicted

variable {pool}

theorem Evicted.absent {pool' : Pool} {roots : List NodeIndex} (evicted : Evicted pool pool' roots)
    {index : NodeIndex} (absent : index ∉ pool.storage.graph.nodes) :
    index ∉ pool'.storage.graph.nodes := by
  rw [← pooled_eq_none] at absent ⊢
  cases found : pool'.storage.pooled index with
  | none => rfl
  | some held =>
      rw [evicted.pooled index held found] at absent
      cases absent

theorem evicted_removeSubtree (pool : Pool) (root : NodeIndex) :
    Evicted pool (pool.removeSubtree root) [root] := by
  obtain ⟨removed, _, subtree⟩ := pool.storage.removeTransactionAndDependentsSubtree_removedSubtree root
  have storageEq := pool.removeSubtree_storage root
  refine ⟨fun _ _ found => subtree.removedNodes.pooled_of_some (storageEq ▸ found),
    fun _ edge => subtree.removedNodes.edge_of_edge (storageEq ▸ edge), ?_, ?_⟩
  · intro index present absent
    rw [storageEq] at absent
    exact ⟨root, List.mem_singleton_self _,
      subtree.below index (subtree.removedNodes.mem_of_absent present absent)⟩
  · intro gone listed
    rw [List.mem_singleton] at listed
    subst listed
    rw [storageEq]
    by_cases present : gone ∈ pool.storage.graph.nodes
    · exact subtree.removedNodes.absent (subtree.rootRemoved present)
    · intro stays
      rw [← isSome_pooled] at present stays
      cases found : (pool.storage.removeTransactionAndDependentsSubtree gone).1.pooled gone with
      | none => simp [found] at stays
      | some held =>
          rw [subtree.removedNodes.pooled_of_some found] at present
          exact present rfl

theorem Evicted.trans {middle final : Pool} {first second : List NodeIndex}
    (before : Evicted pool middle first) (after : Evicted middle final second) :
    Evicted pool final (first ++ second) := by
  refine ⟨fun index held found => before.pooled index held (after.pooled index held found),
    fun edge member => before.edges edge (after.edges edge member), ?_, ?_⟩
  · intro index present absent
    by_cases stays : index ∈ middle.storage.graph.nodes
    · obtain ⟨root, listed, reaches⟩ := after.below index stays absent
      exact ⟨root, List.mem_append_right _ listed, reaches.mono before.edges⟩
    · obtain ⟨root, listed, reaches⟩ := before.below index present stays
      exact ⟨root, List.mem_append_left _ listed, reaches⟩
  · intro root listed
    rcases List.mem_append.mp listed with early | late
    · exact after.absent (before.rootsGone root early)
    · exact after.rootsGone root late

theorem Consistent.foldl_removeSubtree (roots : List NodeIndex) :
    ∀ {pool : Pool}, pool.Consistent →
      (roots.foldl Pool.removeSubtree pool).Consistent ∧
        Evicted pool (roots.foldl Pool.removeSubtree pool) roots := by
  induction roots with
  | nil =>
      intro pool consistent
      refine ⟨consistent, fun _ _ found => found, fun _ member => member, ?_, by simp⟩
      intro index present absent
      exact absurd present absent
  | cons root roots induction =>
      intro pool consistent
      obtain ⟨consistentAfter, evictedAfter⟩ := induction (consistent.removeSubtree root)
      exact ⟨consistentAfter, (evicted_removeSubtree pool root).trans evictedAfter⟩

end Evicted

/-! ## Storing a transaction -/

theorem Consistent.storeChecked {pool : Pool} (consistent : pool.Consistent)
    {checked : CheckedTransaction} (creationInstant : ℕ)
    (present : ∀ dependency ∈ checked.directDependencies, dependency ∈ pool.storage.graph.nodes)
    (noDependencies : checked.allDependencies = [] ↔ checked.directDependencies = [])
    (idFree : pool.txIdToStorageId.lookup checked.tx.id = none)
    (keysFree : ∀ holder, ¬ pool.collisionManager.HoldsKeyOf checked.tx holder) :
    (pool.storeChecked checked creationInstant).Consistent := by
  have stored := pool.storage.storeTransaction_stored checked creationInstant
  simp only [Pool.storeChecked]
  generalize pool.storage.storeTransaction checked creationInstant = result at stored ⊢
  obtain ⟨storage', index⟩ := result
  dsimp only at stored
  simp only [stored.get]
  set entry := StorageData.ofTransaction checked.tx creationInstant
  have freshPooled : pool.storage.pooled index = none := (pooled_eq_none _).mpr stored.fresh
  have idUnheld : ∀ holder held, pool.storage.pooled holder = some held →
      held.1.id ≠ entry.transaction.id := by
    intro holder held found same
    have indexed := (consistent.indexes.txIds checked.tx.id holder).mpr
      ⟨held, found, List.mem_singleton.mpr same.symm⟩
    rw [idFree] at indexed
    cases indexed
  have insertFresh : ∀ {κ : Type} [DecidableEq κ] {keysOf : PoolTransaction × ℕ → List κ}
      {keyIndex : AList fun _ : κ => NodeIndex}, IsIndexOf keysOf pool.storage.pooled keyIndex →
      (∀ key ∈ keysOf entry.identity, keyIndex.lookup key = none) →
      IsIndexOf keysOf storage'.pooled (insertKeys (keysOf entry.identity) index keyIndex) := by
    intro κ _ keysOf keyIndex exact unheld
    rw [stored.pooled]
    refine exact.insert (fun old found => by rw [freshPooled] at found; cases found) ?_
    intro key member holder found
    rw [unheld key member] at found
    cases found
  have notHeld : ∀ {κ : Type} [DecidableEq κ] {keyIndex : AList fun _ : κ => NodeIndex}
      {keys : List κ}, (∀ key ∈ keys, ∀ holder, keyIndex.lookup key = some holder →
        pool.collisionManager.HoldsKeyOf checked.tx holder) →
      ∀ key ∈ keys, keyIndex.lookup key = none := by
    intro κ _ keyIndex keys holds key member
    cases found : keyIndex.lookup key with
    | none => rfl
    | some holder => exact absurd (holds key member holder found) (keysFree holder)
  have txIds : IsIndexOf (fun held => [held.1.id]) storage'.pooled
      (pool.txIdToStorageId.insert checked.tx.id index) := by
    refine insertFresh consistent.indexes.txIds ?_
    intro key member
    rw [List.mem_singleton] at member
    rw [member]
    exact idFree
  have coins : IsIndexOf (·.1.coinInputs) storage'.pooled
      (pool.collisionManager.onStoredTransaction index entry).coinsSpenders := by
    rw [BasicCollisionManager.onStoredTransaction_coinsSpenders]
    exact insertFresh consistent.indexes.coinsSpenders
      (notHeld fun key member holder found => .inl ⟨key, member, found⟩)
  have messages : IsIndexOf (·.1.messageInputs) storage'.pooled
      (pool.collisionManager.onStoredTransaction index entry).messagesSpenders := by
    rw [BasicCollisionManager.onStoredTransaction_messagesSpenders]
    exact insertFresh consistent.indexes.messagesSpenders
      (notHeld fun key member holder found => .inr (.inl ⟨key, member, found⟩))
  have contracts : IsIndexOf (·.1.createdContracts) storage'.pooled
      (pool.collisionManager.onStoredTransaction index entry).contractsCreators := by
    rw [BasicCollisionManager.onStoredTransaction_contractsCreators]
    exact insertFresh consistent.indexes.contractsCreators
      (notHeld fun key member holder found => .inr (.inr (.inl ⟨key, member, found⟩)))
  have blobs : IsIndexOf (·.1.blobIds) storage'.pooled
      (pool.collisionManager.onStoredTransaction index entry).blobsUsers := by
    rw [BasicCollisionManager.onStoredTransaction_blobsUsers]
    exact insertFresh consistent.indexes.blobsUsers
      (notHeld fun key member holder found => .inr (.inr (.inr ⟨key, member, found⟩)))
  have caches : storage'.CachesExact := by
    constructor
    · rw [stored.coinsCreators]
      refine insertFresh consistent.caches.coinsCreators fun key member => ?_
      cases found : pool.storage.coinsCreators.lookup key with
      | none => rfl
      | some holder =>
          obtain ⟨held, holderFound, holds⟩ := (consistent.caches.coinsCreators key holder).mp found
          have sameId := (PoolTransaction.mem_coinOutputs _ holds).symm.trans
            (PoolTransaction.mem_coinOutputs _ member)
          exact absurd sameId (idUnheld holder held holderFound)
    · rw [stored.contractsCreators]
      refine insertFresh consistent.caches.contractsCreators fun key member => ?_
      cases found : pool.storage.contractsCreators.lookup key with
      | none => rfl
      | some holder =>
          obtain ⟨held, holderFound, holds⟩ :=
            (consistent.caches.contractsCreators key holder).mp found
          have created := (consistent.indexes.contractsCreators key holder).mpr ⟨held, holderFound, holds⟩
          exact absurd (.inr (.inr (.inl ⟨key, member, created⟩))) (keysFree holder)
  have gas := stored.total_eq PoolTransaction.maxGas
  have bytes := stored.total_eq PoolTransaction.meteredBytesSize
  rw [← consistent.currentGas, Nat.add_comm] at gas
  rw [← consistent.currentBytesSize, Nat.add_comm] at bytes
  have executableAfter := stored.executable present
  have executableFresh : pool.storage.executable index = none := by
    simp [executable, freshPooled]
  split_ifs with noneAll
  · -- without dependencies the new node is executable
    have direct : checked.directDependencies = [] := by
      simpa [noDependencies] using noneAll
    refine ⟨⟨txIds, ?_, coins, messages, contracts, blobs⟩, caches, gas.symm, bytes.symm⟩
    rw [executableAfter, if_pos direct]
    refine consistent.indexes.selection.newExecutableTransaction
      (stored.idsDistinct consistent.idsDistinct idUnheld) ?_ stored.get ?_
    · intro other held found
      have different : other ≠ index := by
        rintro rfl
        rw [executableFresh] at found
        cases found
      rw [stored.pooled, Function.update_of_ne different]
      exact ((executable_eq_some _).mp found).2
    · intro old found
      rw [executableFresh] at found
      cases found
  · have direct : checked.directDependencies ≠ [] := by
      simpa [noDependencies] using noneAll
    refine ⟨⟨txIds, ?_, coins, messages, contracts, blobs⟩, caches, gas.symm, bytes.symm⟩
    rw [executableAfter, if_neg direct, ← executableFresh, Function.update_eq_self]
    exact consistent.indexes.selection

/-! ## Insertion -/

/-- What an admitted transaction has passed: its id is free, its collisions are found, the
graph accepts it, and neither an eviction nor a collision is among its dependencies. -/
structure Admitted (tx : PoolTransaction) (admitted : CanStoreTransaction) : Prop where
  idFree : tx.id ∉ pool.txIdToStorageId
  collisions : pool.collisionManager.findCollisions tx = .ok admitted.collisions
  checked : pool.storage.canStoreTransaction tx = .ok admitted.checkedTransaction
  collisionsIndependent : ∀ index ∈ admitted.collisions.keys,
    index ∉ admitted.checkedTransaction.allDependencies
  removedIndependent : ∀ index ∈ admitted.transactionsToRemove,
    index ∉ admitted.checkedTransaction.allDependencies

theorem findFreeSpaceLoop_independent (checked : CheckedTransaction) (ratio : ℚ)
    (sortedTxs : List NodeIndex) :
    ∀ {gasLeft bytesLeft txsLeft : ℕ} {transactionsToRemove result : List NodeIndex},
      pool.findFreeSpaceLoop checked ratio sortedTxs gasLeft bytesLeft txsLeft
        transactionsToRemove = .ok result →
      ∀ index ∈ result, index ∈ transactionsToRemove ∨ index ∉ checked.allDependencies := by
  induction sortedTxs with
  | nil =>
      intro gasLeft bytesLeft txsLeft transactionsToRemove result found index member
      rw [findFreeSpaceLoop] at found
      split_ifs at found
      cases found
      exact .inl member
  | cons storageId sortedTxs induction =>
      intro gasLeft bytesLeft txsLeft transactionsToRemove result found index member
      rw [findFreeSpaceLoop] at found
      split_ifs at found with exceeded skip
      · exact induction found index member
      · split at found
        · exact induction found index member
        · dsimp only at found
          split_ifs at found
          rcases induction found index member with earlier | independent
          · rcases List.mem_append.mp earlier with earlier | added
            · exact .inl earlier
            · rw [List.mem_singleton.mp added]
              exact .inr skip
          · exact .inr independent
      · cases found
        exact .inl member

theorem canInsertTransaction_admitted {tx : PoolTransaction} {environment : InsertEnvironment}
    {admitted : CanStoreTransaction} (found : pool.canInsertTransaction tx environment = .ok admitted) :
    pool.Admitted tx admitted := by
  unfold canInsertTransaction at found
  -- the last of these checks sits under the match on the blob
  split_ifs at found with zero duplicate blacklisted invalid
  · split at found <;> cases found
  split at found
  · cases found
  split at found
  · cases found
  case h_2 collisions collided =>
    split at found
    · cases found
    case h_2 checked accepted =>
      split_ifs at found with dependent
      dsimp only at found
      have collisionsIndependent : ∀ index ∈ collisions.keys, index ∉ checked.allDependencies := by
        simpa using dependent
      split at found
      · cases found
      split at found
      · cases found
      · cases found
        exact ⟨duplicate, collided, accepted, collisionsIndependent, by simp⟩
      · split at found
        · cases found
        case h_2 transactionsToRemove freed =>
          cases found
          refine ⟨duplicate, collided, accepted, collisionsIndependent, ?_⟩
          intro index member
          rcases pool.findFreeSpaceLoop_independent checked _ _ freed index member with none | skip
          · cases none
          · exact skip

/-- Inserting keeps the pool consistent: the evictions remove whole subtrees, none of them
reaches a dependency of the new transaction, and no survivor holds its id or keys. -/
theorem Consistent.insert {pool : Pool} (consistent : pool.Consistent) (tx : PoolTransaction)
    (environment : InsertEnvironment) : (pool.insert tx environment).1.Consistent := by
  unfold Pool.insert Pool.insertInner
  split_ifs
  · exact consistent
  split
  · exact consistent
  case h_2 checked transactionsToRemove collisions found =>
    have admitted := pool.canInsertTransaction_admitted found
    obtain ⟨sameTx, collected⟩ := pool.storage.canStoreTransaction_ok consistent.caches admitted.checked
    dsimp only
    rw [← List.foldl_append]
    obtain ⟨evictedConsistent, evicted⟩ :=
      consistent.foldl_removeSubtree (transactionsToRemove ++ collisions.keys)
    have independent : ∀ root ∈ transactionsToRemove ++ collisions.keys,
        root ∉ checked.allDependencies := by
      intro root listed
      rcases List.mem_append.mp listed with removed | collided
      · exact admitted.removedIndependent root removed
      · exact admitted.collisionsIndependent root collided
    refine evictedConsistent.storeChecked _ ?_ collected.allDependencies_eq_nil ?_ ?_
    · -- a dependency evicted would make an evicted root a dependency too
      intro dependency listed
      by_contra gone
      obtain ⟨root, rooted, reaches⟩ :=
        evicted.below dependency (collected.present dependency listed) gone
      exact independent root rooted (collected.closed dependency listed root reaches)
    · apply evictedConsistent.indexes.txIds.lookup_of_unheld
      intro owner held found same
      have indexed :=
        (consistent.indexes.txIds _ owner).mpr ⟨held, evicted.pooled owner held found, same⟩
      rw [sameTx] at indexed
      exact admitted.idFree (AList.lookup_isSome.mp (by rw [indexed]; rfl))
    · -- a survivor holding one of its keys collided with it, so it was evicted
      intro holder holds
      obtain ⟨held, heldFound⟩ := evictedConsistent.indexes.owner_of_holdsKeyOf holds
      have before := consistent.indexes.holdsKeyOf_of_le evictedConsistent.indexes evicted.pooled holds
      rw [sameTx] at before
      have collided := pool.collisionManager.findCollisions_complete admitted.collisions before
      have gone := evicted.rootsGone holder (List.mem_append_right _ (AList.mem_keys.mp collided))
      rw [← pooled_eq_none, heldFound] at gone
      cases gone

/-! ## Commits -/

/-- Promotion of a list of nodes, as the loops of `promote_dependents` and of
`process_committed_transactions` do it, changes only the selection. -/
theorem promoteDependents_eq (dependents : List NodeIndex) :
    pool.promoteDependents dependents =
      { pool with
        selectionAlgorithm := pool.selectionAlgorithm.promote pool.storage
          (dependents.filter fun dependent => !pool.storage.hasDependencies dependent) } := by
  induction dependents generalizing pool with
  | nil => rfl
  | cons dependent dependents induction =>
      rw [promoteDependents, List.foldl_cons, ← promoteDependents, induction]
      cases free : pool.storage.hasDependencies dependent
      · cases found : pool.storage.get dependent <;>
          simp [free, found, RatioTipGasSelection.promote]
      · simp [free]

/-- The last loop of `process_committed_transactions` promotes what the first collected. -/
theorem processCommittedTransactions_eq (txIds : List TxId) :
    pool.processCommittedTransactions txIds =
      let removed := removeCommitted txIds pool []
      { removed.1 with
        selectionAlgorithm := removed.1.selectionAlgorithm.promote removed.1.storage removed.2 } := by
  rw [processCommittedTransactions]
  generalize removeCommitted txIds pool [] = removed
  obtain ⟨pool, transactionsToPromote⟩ := removed
  dsimp only
  induction transactionsToPromote generalizing pool with
  | nil => rfl
  | cons promote transactionsToPromote induction =>
      rw [List.foldl_cons, induction]
      cases found : pool.storage.get promote <;> simp [found, RatioTipGasSelection.promote]

/-- The pool while the nodes of `waiting` wait for their promotion: its components
agree with the graph, and the selection holds the executable nodes outside the list and
some of those in it, each free of dependencies. -/
structure Pending (executable : NodeIndex → Option (PoolTransaction × ℕ))
    (waiting : List NodeIndex) : Prop extends pool.Tracked executable where
  below : ∀ index held, executable index = some held → pool.storage.pooled index = some held
  outside : ∀ index ∉ waiting, executable index = pool.storage.executable index
  inside : ∀ index ∈ waiting,
    executable index = none ∨ executable index = pool.storage.executable index
  ready : ∀ index ∈ waiting, index ∈ pool.storage.graph.nodes →
    pool.storage.hasDependencies index = false

section Pending

variable {pool} {executable : NodeIndex → Option (PoolTransaction × ℕ)} {waiting : List NodeIndex}

theorem Consistent.pending (consistent : pool.Consistent) :
    pool.Pending pool.storage.executable [] :=
  ⟨consistent.toTracked, fun _ _ found => ((executable_eq_some _).mp found).2, fun _ _ => rfl,
    by simp, by simp⟩

theorem Pending.promote (pending : pool.Pending executable waiting) :
    ({ pool with selectionAlgorithm := pool.selectionAlgorithm.promote pool.storage waiting } :
      Pool).Consistent :=
  ⟨{ pending.toTracked with
    indexes := { pending.indexes with
      selection := pending.indexes.selection.promote pending.idsDistinct pending.below
        pending.outside pending.inside pending.ready } }⟩

theorem Pending.withTxIds (pending : pool.Pending executable waiting)
    {txIdToStorageId : AList fun _ : TxId => NodeIndex}
    (same : ∀ txId, txIdToStorageId.lookup txId = pool.txIdToStorageId.lookup txId) :
    ({ pool with txIdToStorageId } : Pool).Pending executable waiting :=
  { pending with
    indexes := { pending.indexes with txIds := pending.indexes.txIds.lookup_congr same } }

/-- Removing the node of a committed id alone: it leaves the selection, and those of its
dependents it left free join the waiting list. -/
theorem Pending.removeOne (pending : pool.Pending executable waiting) {txId : TxId}
    {storageId : NodeIndex} (found : pool.txIdToStorageId.lookup txId = some storageId) :
    ∃ storage entry, pool.storage.removeTransaction storageId = (storage, some entry) ∧
      (({ pool with txIdToStorageId := pool.txIdToStorageId.erase txId, storage } :
        Pool).updateComponentsAndCachesOnRemoval [entry]).Pending
        (Function.update executable storageId none)
        (waiting ++ (pool.storage.getDirectDependents storageId).filter fun dependent =>
          !storage.hasDependencies dependent) := by
  obtain ⟨held, heldFound, sameId⟩ := (pending.indexes.txIds txId storageId).mp found
  cases getFound : pool.storage.get storageId with
  | none => simp [pooled, getFound] at heldFound
  | some entry =>
  have identity : entry.identity = held := by simpa [pooled, getFound] using heldFound
  have entryId : entry.transaction.id = txId := by
    rw [List.mem_singleton.mp sameId, ← identity]
    rfl
  obtain ⟨removedEntry, removal⟩ := pool.storage.removeTransaction_of_present getFound
  refine ⟨_, entry, Prod.ext rfl removedEntry, ?_⟩
  set storage := (pool.storage.removeTransaction storageId).1
  have tracked := @Tracked.updateComponentsAndCachesOnRemoval { pool with storage } _ _ _
    removal (pending.indexes.withStorage storage) pending.below pending.caches pending.currentGas
    pending.currentBytesSize
  have executableAfter : (fun index => if index ∈ [(storageId, entry)].map Prod.fst then none
      else executable index) = Function.update executable storageId none := by
    funext index
    by_cases same : index = storageId <;> simp [same]
  rw [executableAfter] at tracked
  have stays : ∀ index, index ≠ storageId → (storageId, index) ∉ pool.storage.graph.edges →
      storage.executable index = pool.storage.executable index := by
    intro index different unfed
    refine removal.executable_of_unreached (by simpa using different) ?_
    intro source edge listed
    have sourceRemoved : source = storageId := by simpa using listed
    rw [sourceRemoved] at edge
    exact unfed edge
  have dependent : ∀ index, (storageId, index) ∈ pool.storage.graph.edges →
      index ∈ pool.storage.getDirectDependents storageId := fun _ edge =>
    (StableGraph.mem_neighborsDirected_outgoing _).mpr edge
  have removedNone : storage.executable storageId = none := by
    have absent := (pooled_eq_none _).mpr (removal.absent (List.mem_singleton_self _))
    simp [GraphStorage.executable, absent]
  have pending' : (({ pool with storage } : Pool).updateComponentsAndCachesOnRemoval
      [entry]).Pending (Function.update executable storageId none)
      (waiting ++ (pool.storage.getDirectDependents storageId).filter fun dependent =>
        !storage.hasDependencies dependent) := by
    refine ⟨tracked, ?_, ?_, ?_, ?_⟩ <;> simp only [updateComponentsAndCachesOnRemoval_storage]
    · intro index held' found'
      by_cases same : index = storageId
      · rw [same, Function.update_self] at found'
        cases found'
      rw [Function.update_of_ne same] at found'
      rw [removal.pooled, if_neg (by simpa using same)]
      exact pending.below index held' found'
    · intro index unlisted
      by_cases same : index = storageId
      · rw [same, Function.update_self, removedNone]
      rw [Function.update_of_ne same, pending.outside index fun listed => unlisted
        (List.mem_append_left _ listed)]
      by_cases fed : (storageId, index) ∈ pool.storage.graph.edges
      · -- a dependent left out of the list still depends on another node
        have depends : storage.hasDependencies index = true := by
          by_contra free
          exact unlisted (List.mem_append_right _
            (List.mem_filter.mpr ⟨dependent index fed, by simpa using free⟩))
        rw [executable_of_edge _ fed]
        simp [GraphStorage.executable, depends]
      · exact (stays index same fed).symm
    · intro index listed
      by_cases same : index = storageId
      · rw [same, Function.update_self]
        exact .inl rfl
      rw [Function.update_of_ne same]
      have before : executable index = none ∨ executable index = pool.storage.executable index := by
        by_cases waits : index ∈ waiting
        · exact pending.inside index waits
        · exact .inr (pending.outside index waits)
      rcases before with none | executableBefore
      · exact .inl none
      by_cases fed : (storageId, index) ∈ pool.storage.graph.edges
      · rw [executable_of_edge _ fed] at executableBefore
        exact .inl executableBefore
      · rw [stays index same fed]
        exact .inr executableBefore
    · intro index listed present
      rcases List.mem_append.mp listed with waits | promoted
      · exact removal.hasDependencies_false (pending.ready index waits (removal.mem_nodes present))
      · simpa using (List.mem_filter.mp promoted).2
  -- the id erased ahead is erased by the removal anyway
  have erased : ({ pool with txIdToStorageId := pool.txIdToStorageId.erase txId, storage } :
      Pool).updateComponentsAndCachesOnRemoval [entry] =
      { (({ pool with storage } : Pool).updateComponentsAndCachesOnRemoval [entry]) with
        txIdToStorageId := eraseKeys [entry.transaction.id] (pool.txIdToStorageId.erase txId) } := by
    rw [updateComponentsAndCachesOnRemoval_eq, updateComponentsAndCachesOnRemoval_eq]
    rfl
  rw [erased]
  refine pending'.withTxIds fun key => ?_
  rw [updateComponentsAndCachesOnRemoval_eq]
  by_cases same : key = txId
  · subst same
    simp [entryId]
  · simp [entryId, AList.lookup_erase_ne same]

end Pending

theorem Consistent.processPreconfirmedCommittedTransaction {pool : Pool}
    (consistent : pool.Consistent) (txId : TxId) :
    (pool.processPreconfirmedCommittedTransaction txId).Consistent := by
  unfold Pool.processPreconfirmedCommittedTransaction
  cases found : pool.txIdToStorageId.lookup txId with
  | none => exact consistent
  | some storageId =>
      obtain ⟨storage, entry, removed, pending⟩ := consistent.pending.removeOne found
      dsimp only
      rw [removed]
      dsimp only
      rw [promoteDependents_eq]
      simpa using pending.promote

theorem pending_removeCommitted (txIds : List TxId) :
    ∀ {pool : Pool} {executable : NodeIndex → Option (PoolTransaction × ℕ)}
      {waiting : List NodeIndex}, pool.Pending executable waiting →
      ∃ executable', (removeCommitted txIds pool waiting).1.Pending executable'
        (removeCommitted txIds pool waiting).2 := by
  induction txIds with
  | nil =>
      intro pool executable waiting pending
      exact ⟨executable, pending⟩
  | cons txId txIds induction =>
      intro pool executable waiting pending
      rw [removeCommitted]
      cases found : pool.txIdToStorageId.lookup txId with
      | none => exact induction pending
      | some storageId =>
          obtain ⟨storage, entry, removed, pending'⟩ := pending.removeOne found
          dsimp only
          rw [removed]
          dsimp only
          simp only [updateComponentsAndCachesOnRemoval_storage]
          exact induction pending'

theorem Consistent.processCommittedTransactions {pool : Pool} (consistent : pool.Consistent)
    (txIds : List TxId) : (pool.processCommittedTransactions txIds).Consistent := by
  obtain ⟨executable, pending⟩ := pending_removeCommitted txIds consistent.pending
  rw [processCommittedTransactions_eq]
  exact pending.promote

/-! ## Removals with dependents -/

theorem Consistent.removeSubtree_erase {pool : Pool} (consistent : pool.Consistent) {txId : TxId}
    {storageId : NodeIndex} (found : pool.txIdToStorageId.lookup txId = some storageId) :
    (({ pool with txIdToStorageId := pool.txIdToStorageId.erase txId } : Pool).removeSubtree
      storageId).Consistent := by
  obtain ⟨held, heldFound, sameId⟩ := (consistent.indexes.txIds txId storageId).mp found
  have erased := mem_removeTransactionAndDependentsSubtree_ids pool.storage heldFound
  rw [← List.mem_singleton.mp sameId] at erased
  have ahead : ({ pool with txIdToStorageId := pool.txIdToStorageId.erase txId } : Pool).removeSubtree
      storageId = { pool.removeSubtree storageId with
        txIdToStorageId := eraseKeys ((pool.storage.removeTransactionAndDependentsSubtree
          storageId).2.map (·.transaction.id)) (pool.txIdToStorageId.erase txId) } := by
    rw [Pool.removeSubtree, Pool.removeSubtree, updateComponentsAndCachesOnRemoval_eq,
      updateComponentsAndCachesOnRemoval_eq]
  rw [ahead]
  refine (consistent.removeSubtree storageId).withTxIds fun key => ?_
  rw [removeSubtree_txIdToStorageId, lookup_eraseKeys, lookup_eraseKeys]
  split_ifs with listed
  · rfl
  · have different : key ≠ txId := fun same => listed (same ▸ erased)
    exact AList.lookup_erase_ne different

theorem Consistent.removeTransactionsAndDependents {pool : Pool} (consistent : pool.Consistent)
    (txIds : List TxId) : (pool.removeTransactionsAndDependents txIds).Consistent := by
  refine List.foldlRecOn (motive := Pool.Consistent) txIds _ consistent ?_
  intro pool consistent txId _
  split
  · exact consistent
  case h_2 storageId found => exact consistent.removeSubtree_erase found

theorem Consistent.removeSkippedTransaction {pool : Pool} (consistent : pool.Consistent)
    (txId : TxId) : (pool.removeSkippedTransaction txId).Consistent := by
  have removed : (if txId ∈ pool.txIdToStorageId then pool.removeTransactionsAndDependents [txId]
      else pool).Consistent := by
    split_ifs
    · exact consistent.removeTransactionsAndDependents [txId]
    · exact consistent
  exact (removed.foldl_removeSubtree _).1

theorem Consistent.rollbackPreconfirmedTransaction {pool : Pool} (consistent : pool.Consistent)
    (txId : TxId) (createdContracts : List ContractId) :
    (pool.rollbackPreconfirmedTransaction txId createdContracts).Consistent := by
  refine List.foldlRecOn (motive := Pool.Consistent) createdContracts _
    (consistent.foldl_removeSubtree _).1 ?_
  intro pool consistent contractId _
  split_ifs
  · exact consistent
  refine List.foldlRecOn (motive := Pool.Consistent) _ _ consistent ?_
  intro pool consistent userTxId _
  split
  · exact consistent
  · exact consistent.removeSubtree _

/-! ## Runs -/

theorem consistent_new (graphConfig : GraphConfig) (config : Config) :
    (Pool.new (GraphStorage.new graphConfig) .new .new config).Consistent := by
  have empty : (GraphStorage.new graphConfig).pooled = fun _ => none :=
    funext fun _ => (pooled_eq_none _).mpr (by simp [GraphStorage.new, StableGraph.empty])
  have noneExecutable : (GraphStorage.new graphConfig).executable = fun _ => none := by
    funext index
    simp [GraphStorage.executable, empty]
  refine ⟨⟨⟨?_, ?_, ?_, ?_, ?_, ?_⟩, ⟨?_, ?_⟩, rfl, rfl⟩⟩
  all_goals simp only [Pool.new, empty, noneExecutable]
  all_goals exact isIndexOf_empty _

theorem Consistent.run {pool : Pool} (consistent : pool.Consistent) (call : Call) :
    (call.run pool).Consistent := by
  cases call with
  | insert tx environment => exact consistent.insert tx environment
  | extractTransactionsForBlock constraints => exact consistent.extractTransactionsForBlock constraints
  | processCommittedTransactions txIds => exact consistent.processCommittedTransactions txIds
  | processPreconfirmedCommittedTransaction txId =>
      exact consistent.processPreconfirmedCommittedTransaction txId
  | removeTransactionsAndDependents txIds => exact consistent.removeTransactionsAndDependents txIds
  | removeSkippedTransaction txId => exact consistent.removeSkippedTransaction txId
  | rollbackPreconfirmedTransaction txId createdContracts =>
      exact consistent.rollbackPreconfirmedTransaction txId createdContracts

theorem Consistent.runCalls {pool : Pool} (consistent : pool.Consistent) (calls : List Call) :
    (runCalls pool calls).Consistent :=
  List.foldlRecOn (motive := Pool.Consistent) calls _ consistent
    fun _ consistent call _ => consistent.run call

end Pool

end FuelCore.TxPool
