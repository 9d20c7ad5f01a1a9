import FuelCore.Lib.ReverseIndex
import FuelCore.Lib.StableGraph
import FuelCore.TxPool.Transaction

/-! # The dependency graph of the pool

`storage/graph.rs`: the pooled transactions are the nodes of a `StableDiGraph`, with an
edge from a transaction to every pooled transaction that spends one of its coins or
uses a contract it creates. Every node carries totals over itself and its dependents;
storing a transaction adds it to the totals of all its dependencies, and removing a
subtree subtracts each removed node's totals from its remaining dependencies. Two caches
send the coins and the contracts pooled transactions create to their creators.

Loops follow the source. `HashSet`s are duplicate-free lists, iterated in their order.
The recursion of `reduce_dependencies_cumulative_gas_tip_and_chain_count` follows
dependency edges upwards, so it is given the number of nodes as fuel: a chain of
dependencies in the acyclic graph is shorter. The walk of `can_store_transaction` adds
a node per pass and fails once `max_txs_chain_count` nodes are in it, so it is given
`max_txs_chain_count + 1` passes. The breadth-first removal terminates because each
pass takes an element off the queue and every pushed dependent takes an edge with it.
-/

namespace FuelCore.TxPool

structure GraphConfig where
  /-- The maximum number of transactions per dependency chain. -/
  maxTxsChainCount : ℕ
  deriving DecidableEq, Repr

structure GraphStorage where
  config : GraphConfig
  graph : StableGraph StorageData
  /-- Coin -> the node that creates it. -/
  coinsCreators : AList fun _ : UtxoId => NodeIndex
  /-- Contract -> the node that creates it. -/
  contractsCreators : AList fun _ : ContractId => NodeIndex

/-- `storage::checked_collision::CheckedTransaction`. -/
structure CheckedTransaction where
  tx : PoolTransaction
  directDependencies : List NodeIndex
  allDependencies : List NodeIndex

/-! ## The totals of a node -/

/-- The totals of `node` without those of a removed dependent, each subtraction saturating. -/
def StorageData.withoutDependent (node removedNode : StorageData) : StorageData :=
  { node with
    dependentsCumulativeGas := node.dependentsCumulativeGas - removedNode.dependentsCumulativeGas
    dependentsCumulativeTip := node.dependentsCumulativeTip - removedNode.dependentsCumulativeTip
    numberDependentsInChain := node.numberDependentsInChain - removedNode.numberDependentsInChain
    dependentsCumulativeBytesSize :=
      node.dependentsCumulativeBytesSize - removedNode.dependentsCumulativeBytesSize }

/-- The totals of `node` with a new dependent added. -/
def StorageData.withDependent (node : StorageData) (transaction : PoolTransaction) : StorageData :=
  { node with
    numberDependentsInChain := node.numberDependentsInChain + 1
    dependentsCumulativeTip := node.dependentsCumulativeTip + transaction.tip
    dependentsCumulativeGas := node.dependentsCumulativeGas + transaction.maxGas
    dependentsCumulativeBytesSize :=
      node.dependentsCumulativeBytesSize + transaction.meteredBytesSize }

/-- The node `store_transaction` adds for a transaction. -/
def StorageData.ofTransaction (transaction : PoolTransaction) (creationInstant : ℕ) :
    StorageData where
  transaction
  dependentsCumulativeTip := transaction.tip
  dependentsCumulativeGas := transaction.maxGas
  dependentsCumulativeBytesSize := transaction.meteredBytesSize
  numberDependentsInChain := 1
  creationInstant

/-- A node's transaction and creation instant: all of it that its totals leave out. -/
def StorageData.identity (data : StorageData) : PoolTransaction × ℕ :=
  (data.transaction, data.creationInstant)

namespace GraphStorage

/-- `GraphStorage::new`. -/
def new (config : GraphConfig) : GraphStorage :=
  ⟨config, .empty, ∅, ∅⟩

variable (storage : GraphStorage)

/-- `Storage::get`. -/
def get (index : NodeIndex) : Option StorageData :=
  storage.graph.nodeWeight index

/-- `get_direct_dependents`: the transactions that spend from `index`. -/
def getDirectDependents (index : NodeIndex) : List NodeIndex :=
  storage.graph.neighborsDirected index .outgoing

/-- `get_direct_dependencies`: the transactions `index` spends from. -/
def getDirectDependencies (index : NodeIndex) : List NodeIndex :=
  storage.graph.neighborsDirected index .incoming

/-- `has_dependencies`. -/
def hasDependencies (index : NodeIndex) : Bool :=
  !(storage.getDirectDependencies index).isEmpty

/-- What each node holds, apart from its totals. -/
def pooled (index : NodeIndex) : Option (PoolTransaction × ℕ) :=
  (storage.get index).map StorageData.identity

/-! ## Caches -/

/-- `cache_tx_infos`: record the coins and contracts the node at `nodeId` creates. -/
def cacheTxInfos (txId : TxId) (nodeId : NodeIndex) : GraphStorage :=
  match storage.get nodeId with
  | none => storage
  | some node =>
      node.transaction.outputs.zipIdx.foldl (fun storage (output, index) =>
        match output with
        | .coin => { storage with coinsCreators := storage.coinsCreators.insert ⟨txId, index⟩ nodeId }
        | .contractCreated contractId =>
            { storage with contractsCreators := storage.contractsCreators.insert contractId nodeId }
        | _ => storage) storage

/-- `clear_cache`: forget the coins and contracts a removed transaction created. -/
def clearCache (storageEntry : StorageData) : GraphStorage :=
  let txId := storageEntry.transaction.id
  storageEntry.transaction.outputs.zipIdx.foldl (fun storage (output, index) =>
    match output with
    | .coin => { storage with coinsCreators := storage.coinsCreators.erase ⟨txId, index⟩ }
    | .contractCreated contractId =>
        { storage with contractsCreators := storage.contractsCreators.erase contractId }
    | _ => storage) storage

/-! ## Totals -/

/-- `reduce_dependencies_cumulative_gas_tip_and_chain_count`: subtract the removed node's
totals from `rootId`, then recursively from its dependencies. -/
def reduceDependenciesCumulativeGasTipAndChainCount :
    ℕ → GraphStorage → NodeIndex → StorageData → GraphStorage
  | 0, storage, _, _ => storage
  | fuel + 1, storage, rootId, removedNode =>
      match storage.get rootId with
      | none => storage
      | some _ =>
          let storage := { storage with
            graph := storage.graph.modifyNode rootId fun root =>
              StorageData.withoutDependent root removedNode }
          (storage.getDirectDependencies rootId).foldl (fun storage dependency =>
            reduceDependenciesCumulativeGasTipAndChainCount fuel storage dependency removedNode)
            storage

/-- The subtraction for the dependencies of a removed node, with the number of nodes as
fuel. -/
def reduceDependencies (dependencies : List NodeIndex) (removedNode : StorageData) :
    GraphStorage :=
  let fuel := storage.graph.nodes.entries.length
  dependencies.foldl (fun storage dependency =>
    reduceDependenciesCumulativeGasTipAndChainCount fuel storage dependency removedNode) storage

theorem clearCache_graph (storageEntry : StorageData) :
    (storage.clearCache storageEntry).graph = storage.graph := by
  unfold clearCache
  generalize storageEntry.transaction.outputs.zipIdx = outputs
  induction outputs generalizing storage with
  | nil => rfl
  | cons output outputs induction =>
      obtain ⟨output, index⟩ := output
      cases output <;> exact induction _

/-! ## Changes to the totals alone -/

/-- `storage'` is `storage` with other totals on some of its nodes. -/
structure Reweighted (storage storage' : GraphStorage) : Prop where
  config : storage'.config = storage.config
  edges : storage'.graph.edges = storage.graph.edges
  pooled : storage'.pooled = storage.pooled
  coinsCreators : storage'.coinsCreators = storage.coinsCreators
  contractsCreators : storage'.contractsCreators = storage.contractsCreators

theorem Reweighted.refl : Reweighted storage storage :=
  ⟨rfl, rfl, rfl, rfl, rfl⟩

theorem Reweighted.trans {initial middle final : GraphStorage} (first : Reweighted initial middle)
    (second : Reweighted middle final) : Reweighted initial final :=
  ⟨second.config.trans first.config, second.edges.trans first.edges,
    second.pooled.trans first.pooled, second.coinsCreators.trans first.coinsCreators,
    second.contractsCreators.trans first.contractsCreators⟩

theorem Reweighted.foldl {α : Type} (step : GraphStorage → α → GraphStorage)
    (each : ∀ storage element, Reweighted storage (step storage element)) (elements : List α) :
    Reweighted storage (elements.foldl step storage) := by
  induction elements generalizing storage with
  | nil => exact Reweighted.refl storage
  | cons element elements induction =>
      exact (each storage element).trans (induction _)

theorem reweighted_modifyNode (index : NodeIndex) (f : StorageData → StorageData)
    (keeps : ∀ node, (f node).identity = node.identity) :
    Reweighted storage { storage with graph := storage.graph.modifyNode index f } := by
  refine ⟨rfl, StableGraph.modifyNode_edges _ _ _, ?_, rfl, rfl⟩
  funext other
  simp only [pooled, get, StableGraph.nodeWeight, StableGraph.lookup_modifyNode]
  split_ifs with same
  · subst same
    cases storage.graph.nodes.lookup other <;> simp [keeps]
  · rfl

theorem reduce_reweighted (fuel : ℕ) :
    ∀ (storage : GraphStorage) (rootId : NodeIndex) (removedNode : StorageData),
      Reweighted storage
        (reduceDependenciesCumulativeGasTipAndChainCount fuel storage rootId removedNode) := by
  induction fuel with
  | zero =>
      intro storage rootId removedNode
      exact Reweighted.refl storage
  | succ fuel induction =>
      intro storage rootId removedNode
      simp only [reduceDependenciesCumulativeGasTipAndChainCount]
      split
      · exact Reweighted.refl storage
      · apply (reweighted_modifyNode storage rootId
          (fun root => StorageData.withoutDependent root removedNode) fun _ => rfl).trans
        exact Reweighted.foldl _ _ (fun storage dependency => induction storage dependency removedNode) _

theorem reduceDependencies_reweighted (dependencies : List NodeIndex) (removedNode : StorageData) :
    Reweighted storage (storage.reduceDependencies dependencies removedNode) :=
  Reweighted.foldl storage _
    (fun storage dependency => reduce_reweighted _ storage dependency removedNode) dependencies

/-! ## Removal -/

/-- The loop of `bfs`: remove the node at the front of the queue, queue its dependents
and subtract its totals from its dependencies. A queued node that is no longer in the
graph is skipped (the source's `expect`, which the absence of diamonds never lets fail). -/
def bfsLoop (storage : GraphStorage) (queue : List NodeIndex) (result : List StorageData) :
    GraphStorage × List StorageData :=
  match queue with
  | [] => (storage, result)
  | remove :: queue =>
      let dependents := storage.getDirectDependents remove
      let dependencies := storage.getDirectDependencies remove
      match _removed : storage.graph.removeNode remove with
      | none => bfsLoop storage queue result
      | some (graph, removedStorageEntry) =>
          let storage := ({ storage with graph } : GraphStorage).clearCache removedStorageEntry
          bfsLoop (storage.reduceDependencies dependencies removedStorageEntry)
            (queue ++ dependents) (result ++ [removedStorageEntry])
termination_by storage.graph.edges.length + queue.length
decreasing_by
  · simp only [List.length_cons]
    omega
  · obtain ⟨present, _, erased⟩ := (StableGraph.removeNode_eq_some _).mp _removed
    simp only at erased
    have fewer := StableGraph.eraseNode_edges_length _ _ present
    rw [(reduceDependencies_reweighted _ _ _).edges, clearCache_graph]
    simp only [erased, List.length_append, List.length_cons]
    unfold getDirectDependents at *
    omega

/-- `bfs`, through `remove_transaction_and_dependents_subtree`: remove a transaction and
every transaction depending on it. -/
def removeTransactionAndDependentsSubtree (root : NodeIndex) :
    GraphStorage × List StorageData :=
  if (storage.graph.nodes.lookup root).isSome then bfsLoop storage [root] [] else (storage, [])

/-- `remove_transaction`, and `RatioTipGasSelectionAlgorithmStorage::remove`, which has
the same body: remove one node and nothing else. -/
def removeTransaction (index : NodeIndex) : GraphStorage × Option StorageData :=
  match storage.graph.removeNode index with
  | none => (storage, none)
  | some (graph, storageEntry) =>
      (({ storage with graph } : GraphStorage).clearCache storageEntry, some storageEntry)

/-! ## Checking and storing a transaction -/

/-- The loop of `collect_transaction_direct_dependencies` over the remaining inputs: the
creators in the pool of the coins and contracts the transaction uses. -/
def collectInputDependencies :
    List Input → List NodeIndex → Except Error (List NodeIndex)
  | [], directDependencies => .ok directDependencies
  | input :: inputs, directDependencies =>
      let creator := match input with
        | .coin utxoId => storage.coinsCreators.lookup utxoId
        | .message _ => none
        | .contract contractId => storage.contractsCreators.lookup contractId
      match creator with
      | none => collectInputDependencies inputs directDependencies
      | some nodeId =>
          let directDependencies := directDependencies.insert nodeId
          if storage.config.maxTxsChainCount ≤ directDependencies.length then
            .error (.dependency .notInsertedChainDependencyTooBig)
          else collectInputDependencies inputs directDependencies

/-- `collect_transaction_direct_dependencies`. -/
def collectTransactionDirectDependencies (transaction : PoolTransaction) :
    Except Error (List NodeIndex) :=
  storage.collectInputDependencies transaction.inputs []

/-- The walk of `can_store_transaction` through the dependencies of the direct
dependencies; `toCheck` is the stack, its top first. A node met twice is a diamond. -/
def collectAllDependencies :
    ℕ → List NodeIndex → List NodeIndex → Except Error (List NodeIndex)
  | _, allDependencies, [] => .ok allDependencies
  | 0, _, _ :: _ => .error (.dependency .notInsertedChainDependencyTooBig)
  | fuel + 1, allDependencies, nodeId :: toCheck =>
      if nodeId ∈ allDependencies then .error (.dependency .dependentTransactionIsADiamondDeath)
      else
        let allDependencies := nodeId :: allDependencies
        if storage.config.maxTxsChainCount ≤ allDependencies.length then
          .error (.dependency .notInsertedChainDependencyTooBig)
        else
          match storage.get nodeId with
          | none => collectAllDependencies fuel allDependencies toCheck
          | some dependencyNode =>
              if storage.config.maxTxsChainCount ≤ dependencyNode.numberDependentsInChain then
                .error (.dependency .notInsertedChainDependencyTooBig)
              else if dependencyNode.transaction.isBlob then
                .error (.dependency .notInsertedDependentOnBlob)
              else
                collectAllDependencies fuel allDependencies
                  ((storage.getDirectDependencies nodeId).reverse ++ toCheck)

/-- `can_store_transaction`. -/
def canStoreTransaction (transaction : PoolTransaction) : Except Error CheckedTransaction :=
  match storage.collectTransactionDirectDependencies transaction with
  | .error error => .error error
  | .ok directDependencies =>
      match storage.collectAllDependencies (storage.config.maxTxsChainCount + 1) []
          directDependencies.reverse with
      | .error error => .error error
      | .ok allDependencies => .ok ⟨transaction, directDependencies, allDependencies⟩

/-- `store_transaction`: add the transaction to the totals of all its dependencies, add
its node with an edge from each direct dependency, and cache what it creates. -/
def storeTransaction (checked : CheckedTransaction) (creationInstant : ℕ) :
    GraphStorage × NodeIndex :=
  let transaction := checked.tx
  let storage := checked.allDependencies.foldl (fun storage nodeId =>
    { storage with
      graph := storage.graph.modifyNode nodeId fun node =>
        StorageData.withDependent node transaction }) storage
  let added := storage.graph.addNode (StorageData.ofTransaction transaction creationInstant)
  let graph := checked.directDependencies.foldl (fun graph dependency =>
    graph.addEdge dependency added.2) added.1
  (({ storage with graph } : GraphStorage).cacheTxInfos transaction.id added.2, added.2)

end GraphStorage

end FuelCore.TxPool
