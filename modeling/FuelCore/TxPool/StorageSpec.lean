import FuelCore.TxPool.GraphStorage

/-! # What the graph operations do

Each operation of the graph storage, specified by what it leaves pooled (the
transaction and creation instant of every node), by its edges and by its two caches.
The caches stay exact under every operation. The breadth-first removal takes out a set
of nodes below the root and closed under dependents, the root with them; removing one
node takes that node alone. The walk of `can_store_transaction` collects every
transitive dependency of the direct ones, and storing adds one fresh node with an edge
from each direct dependency.
-/

namespace FuelCore.TxPool

namespace GraphStorage

open AList

variable (storage : GraphStorage)

/-- The nodes without dependencies, which the selection holds. -/
def executable (index : NodeIndex) : Option (PoolTransaction × ℕ) :=
  if storage.hasDependencies index then none else storage.pooled index

/-- The caches send each coin and contract a pooled transaction creates to its node. -/
structure CachesExact : Prop where
  coinsCreators : IsIndexOf (·.1.coinOutputs) storage.pooled storage.coinsCreators
  contractsCreators : IsIndexOf (·.1.createdContracts) storage.pooled storage.contractsCreators

/-- No two nodes hold one transaction id. -/
def IdsDistinct : Prop :=
  ∀ first second held held', storage.pooled first = some held →
    storage.pooled second = some held' → held.1.id = held'.1.id → first = second

theorem isSome_pooled {index : NodeIndex} :
    (storage.pooled index).isSome ↔ index ∈ storage.graph.nodes := by
  simp [pooled, get, StableGraph.nodeWeight, AList.lookup_isSome]

theorem pooled_eq_none {index : NodeIndex} :
    storage.pooled index = none ↔ index ∉ storage.graph.nodes := by
  rw [← storage.isSome_pooled, Option.not_isSome_iff_eq_none]

theorem hasDependencies_iff {index : NodeIndex} :
    storage.hasDependencies index = true ↔ ∃ source, (source, index) ∈ storage.graph.edges := by
  simp only [hasDependencies, getDirectDependencies, Bool.not_eq_eq_eq_not, Bool.not_true,
    List.isEmpty_eq_false_iff_exists_mem, StableGraph.mem_neighborsDirected_incoming]

theorem executable_eq_some {index : NodeIndex} {held : PoolTransaction × ℕ} :
    storage.executable index = some held ↔
      storage.hasDependencies index = false ∧ storage.pooled index = some held := by
  unfold executable
  cases storage.hasDependencies index <;> simp

theorem executable_of_edge {source index : NodeIndex} (edge : (source, index) ∈ storage.graph.edges) :
    storage.executable index = none := by
  have depends := storage.hasDependencies_iff.mpr ⟨source, edge⟩
  simp [executable, depends]

theorem map_lookup_nodes (f : PoolTransaction → ℕ) (index : NodeIndex) :
    (storage.graph.nodes.lookup index).map (fun data => f data.transaction) =
      (storage.pooled index).map fun held => f held.1 := by
  simp only [pooled, get, StableGraph.nodeWeight, Option.map_map]
  rfl

/-! ## Changes to the totals alone -/

section Reweighted

variable {storage storage' : GraphStorage}

theorem Reweighted.hasDependencies (reweighted : Reweighted storage storage') :
    storage'.hasDependencies = storage.hasDependencies := by
  funext index
  simp only [GraphStorage.hasDependencies, getDirectDependencies, StableGraph.neighborsDirected,
    reweighted.edges]

theorem Reweighted.executable (reweighted : Reweighted storage storage') :
    storage'.executable = storage.executable := by
  funext index
  simp only [GraphStorage.executable, reweighted.hasDependencies, reweighted.pooled]

theorem Reweighted.cachesExact (reweighted : Reweighted storage storage')
    (exact : storage.CachesExact) : storage'.CachesExact := by
  constructor
  · rw [reweighted.pooled, reweighted.coinsCreators]
    exact exact.coinsCreators
  · rw [reweighted.pooled, reweighted.contractsCreators]
    exact exact.contractsCreators

theorem Reweighted.mem_nodes (reweighted : Reweighted storage storage') {index : NodeIndex} :
    index ∈ storage'.graph.nodes ↔ index ∈ storage.graph.nodes := by
  rw [← isSome_pooled, ← isSome_pooled, reweighted.pooled]

end Reweighted

/-! ## The caches -/

theorem clearCache_config (entry : StorageData) :
    (storage.clearCache entry).config = storage.config := by
  unfold clearCache
  rw [← @List.foldl_hom _ _ _ config _ (fun config _ => config) _ _
    (fun _ output => by obtain ⟨output, _⟩ := output; cases output <;> rfl), List.foldl_fixed]

theorem clearCache_coinsCreators (entry : StorageData) :
    (storage.clearCache entry).coinsCreators =
      eraseKeys entry.transaction.coinOutputs storage.coinsCreators := by
  unfold clearCache
  rw [PoolTransaction.coinOutputs, eraseKeys_filterMap]
  exact (List.foldl_hom _ fun _ output => by obtain ⟨output, _⟩ := output; cases output <;> rfl).symm

theorem clearCache_contractsCreators (entry : StorageData) :
    (storage.clearCache entry).contractsCreators =
      eraseKeys entry.transaction.createdContracts storage.contractsCreators := by
  unfold clearCache
  conv_rhs => rw [PoolTransaction.createdContracts,
    ← List.zipIdx_map_fst 0 entry.transaction.outputs, List.filterMap_map]
  rw [eraseKeys_filterMap]
  exact (List.foldl_hom _ fun _ output => by obtain ⟨output, _⟩ := output; cases output <;> rfl).symm

theorem cacheTxInfos_graph (txId : TxId) (nodeId : NodeIndex) :
    (storage.cacheTxInfos txId nodeId).graph = storage.graph := by
  unfold cacheTxInfos
  split
  · rfl
  · rw [← @List.foldl_hom _ _ _ graph _ (fun graph _ => graph) _ _
      (fun _ output => by obtain ⟨output, _⟩ := output; cases output <;> rfl), List.foldl_fixed]

theorem cacheTxInfos_config (txId : TxId) (nodeId : NodeIndex) :
    (storage.cacheTxInfos txId nodeId).config = storage.config := by
  unfold cacheTxInfos
  split
  · rfl
  · rw [← @List.foldl_hom _ _ _ config _ (fun config _ => config) _ _
      (fun _ output => by obtain ⟨output, _⟩ := output; cases output <;> rfl), List.foldl_fixed]

theorem cacheTxInfos_coinsCreators {nodeId : NodeIndex} {node : StorageData}
    (found : storage.get nodeId = some node) :
    (storage.cacheTxInfos node.transaction.id nodeId).coinsCreators =
      insertKeys node.transaction.coinOutputs nodeId storage.coinsCreators := by
  unfold cacheTxInfos
  rw [found, PoolTransaction.coinOutputs, insertKeys_filterMap]
  exact (List.foldl_hom _ fun _ output => by obtain ⟨output, _⟩ := output; cases output <;> rfl).symm

theorem cacheTxInfos_contractsCreators {nodeId : NodeIndex} {node : StorageData}
    (found : storage.get nodeId = some node) :
    (storage.cacheTxInfos node.transaction.id nodeId).contractsCreators =
      insertKeys node.transaction.createdContracts nodeId storage.contractsCreators := by
  unfold cacheTxInfos
  rw [found]
  conv_rhs => rw [PoolTransaction.createdContracts,
    ← List.zipIdx_map_fst 0 node.transaction.outputs, List.filterMap_map]
  rw [insertKeys_filterMap]
  exact (List.foldl_hom _ fun _ output => by obtain ⟨output, _⟩ := output; cases output <;> rfl).symm

/-! ## Removing nodes -/

/-- `storage'` is `storage` without the nodes `removed` lists, each with the data it had,
and without the edges at them. -/
structure RemovedNodes (storage storage' : GraphStorage)
    (removed : List (NodeIndex × StorageData)) : Prop where
  distinct : (removed.map Prod.fst).Nodup
  found : ∀ entry ∈ removed, storage.pooled entry.1 = some entry.2.identity
  pooled : ∀ index, storage'.pooled index =
    if index ∈ removed.map Prod.fst then none else storage.pooled index
  edges : ∀ edge, edge ∈ storage'.graph.edges ↔ edge ∈ storage.graph.edges ∧
    edge.1 ∉ removed.map Prod.fst ∧ edge.2 ∉ removed.map Prod.fst
  config : storage'.config = storage.config
  caches : storage.CachesExact → storage'.CachesExact

section Removal

variable {storage storage' : GraphStorage}

theorem RemovedNodes.of_reweighted (reweighted : Reweighted storage storage') :
    RemovedNodes storage storage' [] where
  distinct := List.nodup_nil
  found := by simp
  pooled := by simp [reweighted.pooled]
  edges := by simp [reweighted.edges]
  config := reweighted.config
  caches := reweighted.cachesExact

theorem RemovedNodes.mem_of_absent {removed : List (NodeIndex × StorageData)}
    (removal : RemovedNodes storage storage' removed) {index : NodeIndex}
    (present : index ∈ storage.graph.nodes) (absent : index ∉ storage'.graph.nodes) :
    index ∈ removed.map Prod.fst := by
  by_contra kept
  rw [← pooled_eq_none, removal.pooled, if_neg kept, pooled_eq_none] at absent
  exact absent present

theorem RemovedNodes.absent {removed : List (NodeIndex × StorageData)}
    (removal : RemovedNodes storage storage' removed) {index : NodeIndex}
    (listed : index ∈ removed.map Prod.fst) : index ∉ storage'.graph.nodes := by
  rw [← pooled_eq_none, removal.pooled, if_pos listed]

theorem RemovedNodes.trans {final : GraphStorage} {first second : List (NodeIndex × StorageData)}
    (before : RemovedNodes storage storage' first) (after : RemovedNodes storage' final second) :
    RemovedNodes storage final (first ++ second) := by
  -- the nodes removed second were still there after the first removal
  have secondKept : ∀ entry ∈ second, entry.1 ∉ first.map Prod.fst ∧
      storage.pooled entry.1 = some entry.2.identity := by
    intro entry listed
    have found := after.found entry listed
    rw [before.pooled] at found
    split_ifs at found with gone
    exact ⟨gone, found⟩
  refine ⟨?_, ?_, ?_, ?_, after.config.trans before.config, fun exact => after.caches (before.caches exact)⟩
  · rw [List.map_append, List.nodup_append]
    refine ⟨before.distinct, after.distinct, ?_⟩
    intro index firstListed other secondListed same
    obtain ⟨entry, listed, rfl⟩ := List.mem_map.mp secondListed
    exact (secondKept entry listed).1 (same ▸ firstListed)
  · intro entry listed
    rcases List.mem_append.mp listed with early | late
    · exact before.found entry early
    · exact (secondKept entry late).2
  · intro index
    rw [after.pooled, before.pooled, List.map_append]
    by_cases late : index ∈ second.map Prod.fst
    · simp [late]
    · by_cases early : index ∈ first.map Prod.fst
      · simp [late, early]
      · simp [late, early]
  · intro edge
    rw [after.edges, before.edges, List.map_append]
    simp only [List.mem_append, not_or]
    tauto

theorem RemovedNodes.reweighted {final : GraphStorage} {removed : List (NodeIndex × StorageData)}
    (removal : RemovedNodes storage storage' removed) (reweighted : Reweighted storage' final) :
    RemovedNodes storage final removed := by
  have composed := removal.trans (RemovedNodes.of_reweighted reweighted)
  rwa [List.append_nil] at composed

theorem RemovedNodes.pooled_of_some {removed : List (NodeIndex × StorageData)}
    (removal : RemovedNodes storage storage' removed) {index : NodeIndex}
    {held : PoolTransaction × ℕ} (found : storage'.pooled index = some held) :
    storage.pooled index = some held := by
  rw [removal.pooled] at found
  split_ifs at found
  exact found

theorem RemovedNodes.edge_of_edge {removed : List (NodeIndex × StorageData)}
    (removal : RemovedNodes storage storage' removed) {edge : NodeIndex × NodeIndex}
    (member : edge ∈ storage'.graph.edges) : edge ∈ storage.graph.edges :=
  ((removal.edges edge).mp member).1

theorem RemovedNodes.mem_nodes {removed : List (NodeIndex × StorageData)}
    (removal : RemovedNodes storage storage' removed) {index : NodeIndex}
    (present : index ∈ storage'.graph.nodes) : index ∈ storage.graph.nodes := by
  rw [← isSome_pooled] at present ⊢
  obtain ⟨held, found⟩ := Option.isSome_iff_exists.mp present
  rw [removal.pooled_of_some found]
  rfl

theorem RemovedNodes.hasDependencies_false {removed : List (NodeIndex × StorageData)}
    (removal : RemovedNodes storage storage' removed) {index : NodeIndex}
    (free : storage.hasDependencies index = false) : storage'.hasDependencies index = false := by
  rw [Bool.eq_false_iff] at free ⊢
  intro depends
  rw [hasDependencies_iff] at depends
  obtain ⟨source, edge⟩ := depends
  exact free ((hasDependencies_iff _).mpr ⟨source, removal.edge_of_edge edge⟩)

theorem RemovedNodes.executable_of_nil (removal : RemovedNodes storage storage' []) :
    storage'.executable = storage.executable := by
  have sameEdges : ∀ edge, edge ∈ storage'.graph.edges ↔ edge ∈ storage.graph.edges := by
    intro edge
    simp [removal.edges]
  funext index
  have sameDependencies : storage'.hasDependencies index = storage.hasDependencies index := by
    rw [Bool.eq_iff_iff, hasDependencies_iff, hasDependencies_iff]
    simp only [sameEdges]
  simp [executable, sameDependencies, removal.pooled]

theorem RemovedNodes.idsDistinct {removed : List (NodeIndex × StorageData)}
    (removal : RemovedNodes storage storage' removed) (distinct : storage.IdsDistinct) :
    storage'.IdsDistinct := by
  intro first second held held' firstFound secondFound sameId
  exact distinct first second held held' (removal.pooled_of_some firstFound)
    (removal.pooled_of_some secondFound) sameId

theorem removeNode_removed {index : NodeIndex} {graph : StableGraph StorageData}
    {entry : StorageData} (found : storage.graph.removeNode index = some (graph, entry)) :
    RemovedNodes storage (({ storage with graph } : GraphStorage).clearCache entry)
      [(index, entry)] := by
  obtain ⟨present, looked, erased⟩ := (StableGraph.removeNode_eq_some _).mp found
  simp only at looked erased
  have foundPooled : storage.pooled index = some entry.identity := by
    simp [pooled, get, StableGraph.nodeWeight, looked]
  have pooledAfter : ∀ other, (({ storage with graph } : GraphStorage).clearCache entry).pooled other =
      if other ∈ [(index, entry)].map Prod.fst then none else storage.pooled other := by
    intro other
    simp only [pooled, get, StableGraph.nodeWeight, clearCache_graph, erased,
      StableGraph.eraseNode_nodes, List.map_cons, List.map_nil, List.mem_singleton]
    split_ifs with same
    · rw [same, AList.lookup_erase, Option.map_none]
    · rw [AList.lookup_erase_ne same]
  refine ⟨by simp, by simpa using foundPooled, pooledAfter, ?_, clearCache_config _ _, ?_⟩
  · intro edge
    simp only [clearCache_graph, erased, StableGraph.eraseNode_edges, List.mem_filter,
      decide_eq_true_eq, List.map_cons, List.map_nil, List.mem_singleton]
  · intro exact
    have removedOwners : (({ storage with graph } : GraphStorage).clearCache entry).pooled =
        fun other => if other ∈ [(index, entry.identity)].map Prod.fst then none
          else storage.pooled other := by
      funext other
      rw [pooledAfter]
      rfl
    have onlyOwner : ∀ {κ : Type} [DecidableEq κ] {keysOf : PoolTransaction × ℕ → List κ}
        {cache : AList fun _ : κ => NodeIndex}, IsIndexOf keysOf storage.pooled cache →
        IsIndexOf keysOf (({ storage with graph } : GraphStorage).clearCache entry).pooled
          (eraseKeys (keysOf entry.identity) cache) := by
      intro κ _ keysOf cache cacheExact
      have covers : ∀ removed ∈ [(index, entry.identity)], ∀ value,
          storage.pooled removed.1 = some value → ∀ key ∈ keysOf value, key ∈ keysOf removed.2 := by
        intro removed listed value holds key held
        rw [List.mem_singleton] at listed
        subst listed
        rw [foundPooled, Option.some.injEq] at holds
        exact holds ▸ held
      have unique : ∀ removed ∈ [(index, entry.identity)], ∀ key ∈ keysOf removed.2,
          ∀ holder value, storage.pooled holder = some value → key ∈ keysOf value →
            holder = removed.1 := by
        intro removed listed key held holder value holds holderHolds
        rw [List.mem_singleton] at listed
        subst listed
        exact cacheExact.owner_unique holds holderHolds foundPooled held
      have erasedExact := cacheExact.eraseOwners [(index, entry.identity)] covers unique
      rw [removedOwners]
      simpa using erasedExact
    exact ⟨by rw [clearCache_coinsCreators]; exact onlyOwner exact.coinsCreators,
      by rw [clearCache_contractsCreators]; exact onlyOwner exact.contractsCreators⟩

theorem RemovedNodes.total_add {removed : List (NodeIndex × StorageData)}
    (removal : RemovedNodes storage storage' removed) (f : PoolTransaction → ℕ) :
    total (fun data => f data.transaction) storage'.graph.nodes +
        (removed.map fun entry => f entry.2.transaction).sum =
      total (fun data => f data.transaction) storage.graph.nodes := by
  have erased : total (fun data => f data.transaction) storage'.graph.nodes =
      total (fun data => f data.transaction) (eraseKeys (removed.map Prod.fst) storage.graph.nodes) := by
    apply total_congr
    intro index
    rw [map_lookup_nodes, removal.pooled, lookup_eraseKeys]
    split_ifs
    · rfl
    · rw [map_lookup_nodes]
  have shares : ((removed.map Prod.fst).map fun index =>
      ((storage.graph.nodes.lookup index).map fun data => f data.transaction).getD 0) =
      removed.map fun entry => f entry.2.transaction := by
    rw [List.map_map]
    refine List.map_congr_left fun entry listed => ?_
    simp only [Function.comp_apply]
    rw [map_lookup_nodes, removal.found entry listed]
    rfl
  rw [erased, ← shares]
  exact total_eraseKeys_add _ _ removal.distinct _

theorem RemovedNodes.length_add {removed : List (NodeIndex × StorageData)}
    (removal : RemovedNodes storage storage' removed) :
    storage'.graph.nodes.entries.length + removed.length = storage.graph.nodes.entries.length := by
  have counted := removal.total_add fun _ => 1
  simp only [List.map_const', List.sum_replicate, Nat.nsmul_eq_mul, Nat.mul_one] at counted
  rwa [total_one, total_one] at counted

theorem RemovedNodes.nodup_data {removed : List (NodeIndex × StorageData)}
    (removal : RemovedNodes storage storage' removed) (distinct : storage.IdsDistinct) :
    (removed.map Prod.snd).Nodup := by
  refine List.Nodup.map_on ?_ (List.Nodup.of_map Prod.fst removal.distinct)
  intro first firstListed second secondListed sameData
  have sameIndex := distinct first.1 second.1 _ _ (removal.found first firstListed)
    (removal.found second secondListed) (by rw [sameData])
  exact Prod.ext sameIndex sameData

theorem removeTransaction_of_absent {index : NodeIndex} (absent : storage.get index = none) :
    storage.removeTransaction index = (storage, none) := by
  have gone : storage.graph.removeNode index = none := by
    rw [StableGraph.removeNode_eq_none, ← pooled_eq_none]
    simp [pooled, absent]
  simp [removeTransaction, gone]

theorem removeTransaction_of_present {index : NodeIndex} {entry : StorageData}
    (found : storage.get index = some entry) :
    (storage.removeTransaction index).2 = some entry ∧
      RemovedNodes storage (storage.removeTransaction index).1 [(index, entry)] := by
  have present : index ∈ storage.graph.nodes := AList.lookup_isSome.mp (by
    simp only [get, StableGraph.nodeWeight] at found
    simp [found])
  have removed : storage.graph.removeNode index =
      some (storage.graph.eraseNode index present, entry) :=
    (StableGraph.removeNode_eq_some _).mpr ⟨present, found, rfl⟩
  simp only [removeTransaction, removed, true_and]
  exact removeNode_removed removed

/-- What the breadth-first removal from `root` does: it takes out the nodes `removed`
lists, all below `root`, with every dependent of each, and `root` itself if present. -/
structure RemovedSubtree (storage storage' : GraphStorage) (root : NodeIndex)
    (removed : List (NodeIndex × StorageData)) : Prop where
  removedNodes : RemovedNodes storage storage' removed
  closed : ∀ edge ∈ storage.graph.edges, edge.1 ∈ removed.map Prod.fst →
    edge.2 ∈ removed.map Prod.fst
  below : ∀ index ∈ removed.map Prod.fst, storage.graph.Reaches root index
  rootRemoved : root ∈ storage.graph.nodes → root ∈ removed.map Prod.fst

/-- The loop invariant of the breadth-first removal from `root`, started on `origin`: what
is removed so far is below `root`, and each dependent of a removed node is removed or
queued. -/
theorem bfsLoop_removedSubtree (origin : GraphStorage) (root : NodeIndex) (storage : GraphStorage)
    (queue : List NodeIndex) (result : List StorageData) :
    ∀ removed : List (NodeIndex × StorageData), result = removed.map Prod.snd →
      RemovedNodes origin storage removed →
      (∀ edge ∈ origin.graph.edges, edge.1 ∈ removed.map Prod.fst →
        edge.2 ∈ removed.map Prod.fst ∨ edge.2 ∈ queue) →
      (∀ index ∈ removed.map Prod.fst, origin.graph.Reaches root index) →
      (∀ index ∈ queue, origin.graph.Reaches root index) →
      (root ∈ origin.graph.nodes → root ∈ removed.map Prod.fst ∨ root ∈ queue) →
      ∃ removed', (bfsLoop storage queue result).2 = removed'.map Prod.snd ∧
        RemovedSubtree origin (bfsLoop storage queue result).1 root removed' := by
  induction storage, queue, result using bfsLoop.induct with
  | case1 storage result =>
      intro removed results sofar closedUpTo below _ rootSeen
      rw [bfsLoop]
      refine ⟨removed, results, sofar, ?_, below, ?_⟩
      · intro edge member source
        simpa using closedUpTo edge member source
      · intro present
        simpa using rootSeen present
  | case2 storage result remove queue gone induction =>
      intro removed results sofar closedUpTo below belowQueued rootSeen
      rw [bfsLoop, gone]
      -- a queued node already out of the graph was removed earlier
      have wasRemoved : remove ∈ origin.graph.nodes → remove ∈ removed.map Prod.fst :=
        fun present => sofar.mem_of_absent present ((StableGraph.removeNode_eq_none _).mp gone)
      refine induction removed results sofar ?_ below
        (fun index queued => belowQueued index (List.mem_cons_of_mem _ queued)) ?_
      · intro edge member source
        rcases closedUpTo edge member source with done | queued
        · exact .inl done
        · rcases List.mem_cons.mp queued with same | later
          · rw [same]
            exact .inl (wasRemoved (same ▸ (origin.graph.edges_mem edge member).2))
          · exact .inr later
      · intro present
        rcases rootSeen present with done | queued
        · exact .inl done
        · rcases List.mem_cons.mp queued with same | later
          · rw [same]
            exact .inl (wasRemoved (same ▸ present))
          · exact .inr later
  | case3 storage result remove queue dependents dependencies graph entry found cleared induction =>
      intro removed results sofar closedUpTo below belowQueued rootSeen
      rw [bfsLoop, found]
      have present : remove ∈ storage.graph.nodes :=
        ((StableGraph.removeNode_eq_some _).mp found).1
      have notYet : remove ∉ removed.map Prod.fst := fun listed => sofar.absent listed present
      have reachesRemove := belowQueued remove (List.mem_cons_self ..)
      have dependentsEq : dependents = storage.getDirectDependents remove := rfl
      have removal := (sofar.trans (removeNode_removed found)).reweighted
        (reduceDependencies_reweighted cleared dependencies entry)
      refine induction (removed ++ [(remove, entry)]) (by rw [results, List.map_append]; rfl)
        removal ?_ ?_ ?_ ?_
      · -- the dependents of the removed node are queued behind the rest
        intro edge member source
        rw [List.map_append, List.mem_append] at source ⊢
        rcases source with early | now
        · rcases closedUpTo edge member early with done | queued
          · exact .inl (.inl done)
          · rcases List.mem_cons.mp queued with same | later
            · exact .inl (.inr (by simp [same]))
            · exact .inr (List.mem_append_left _ later)
        · by_cases done : edge.2 ∈ removed.map Prod.fst
          · exact .inl (.inl done)
          · have fromRemove : edge.1 = remove := by simpa using now
            have kept : edge ∈ storage.graph.edges :=
              (sofar.edges edge).mpr ⟨member, fromRemove ▸ notYet, done⟩
            refine .inr (List.mem_append_right _ ?_)
            rw [dependentsEq, getDirectDependents, StableGraph.mem_neighborsDirected_outgoing,
              ← fromRemove]
            exact kept
      · intro index listed
        rw [List.map_append, List.mem_append] at listed
        rcases listed with early | now
        · exact below index early
        · simp only [List.map_cons, List.map_nil, List.mem_singleton] at now
          exact now ▸ reachesRemove
      · intro index queued
        rcases List.mem_append.mp queued with early | dependent
        · exact belowQueued index (List.mem_cons_of_mem _ early)
        · rw [dependentsEq, getDirectDependents, StableGraph.mem_neighborsDirected_outgoing] at dependent
          have edge := ((sofar.edges _).mp dependent).1
          exact reachesRemove.tail edge
      · intro rootPresent
        rcases rootSeen rootPresent with done | queued
        · exact .inl (by simp [done])
        · rcases List.mem_cons.mp queued with same | later
          · exact .inl (by simp [same])
          · exact .inr (List.mem_append_left _ later)

theorem removeTransactionAndDependentsSubtree_removedSubtree (root : NodeIndex) :
    ∃ removed, (storage.removeTransactionAndDependentsSubtree root).2 = removed.map Prod.snd ∧
      RemovedSubtree storage (storage.removeTransactionAndDependentsSubtree root).1 root removed := by
  unfold removeTransactionAndDependentsSubtree
  split_ifs with present
  · apply bfsLoop_removedSubtree storage root storage [root] [] [] rfl
      (RemovedNodes.of_reweighted (Reweighted.refl storage))
    · simp
    · simp
    · intro index queued
      rw [List.mem_singleton] at queued
      exact queued ▸ Relation.ReflTransGen.refl
    · intro _
      exact .inr (List.mem_singleton_self _)
  · refine ⟨[], rfl, RemovedNodes.of_reweighted (Reweighted.refl storage), by simp, by simp, ?_⟩
    intro rootPresent
    exact absurd (AList.lookup_isSome.mpr rootPresent) present

theorem RemovedNodes.executable_of_unreached {removed : List (NodeIndex × StorageData)}
    (removal : RemovedNodes storage storage' removed) {index : NodeIndex}
    (kept : index ∉ removed.map Prod.fst)
    (unreached : ∀ source, (source, index) ∈ storage.graph.edges → source ∉ removed.map Prod.fst) :
    storage'.executable index = storage.executable index := by
  have sameDependencies : storage'.hasDependencies index = storage.hasDependencies index := by
    rw [Bool.eq_iff_iff, hasDependencies_iff, hasDependencies_iff]
    constructor
    · rintro ⟨source, edge⟩
      exact ⟨source, removal.edge_of_edge edge⟩
    · rintro ⟨source, edge⟩
      exact ⟨source, (removal.edges _).mpr ⟨edge, unreached source edge, kept⟩⟩
  simp only [GraphStorage.executable, sameDependencies, removal.pooled, if_neg kept]

/-- The nodes a subtree removal leaves keep all their dependencies: a removed source would
have taken its dependent with it. -/
theorem RemovedSubtree.executable {root : NodeIndex} {removed : List (NodeIndex × StorageData)}
    (subtree : RemovedSubtree storage storage' root removed) {index : NodeIndex}
    (kept : index ∉ removed.map Prod.fst) : storage'.executable index = storage.executable index :=
  subtree.removedNodes.executable_of_unreached kept fun _ edge gone => kept (subtree.closed _ edge gone)

end Removal

/-! ## Checking and storing a transaction -/

/-- The walk of `can_store_transaction` keeps what it has visited and collects every node
from which a path leads to a node on its stack. -/
theorem collectAllDependencies_complete :
    ∀ {fuel : ℕ} {visited toCheck result : List NodeIndex},
      storage.collectAllDependencies fuel visited toCheck = .ok result →
      (∀ index ∈ visited, index ∈ result) ∧
        ∀ target ∈ toCheck, ∀ index, storage.graph.Reaches index target → index ∈ result := by
  intro fuel
  induction fuel with
  | zero =>
      intro visited toCheck result collected
      cases toCheck with
      | nil =>
          cases collected
          exact ⟨fun _ visited => visited, by simp⟩
      | cons _ _ => cases collected
  | succ fuel induction =>
      intro visited toCheck result collected
      cases toCheck with
      | nil =>
          cases collected
          exact ⟨fun _ visited => visited, by simp⟩
      | cons nodeId toCheck =>
          simp only [collectAllDependencies] at collected
          split_ifs at collected
          -- a path into `nodeId` is `nodeId` itself or ends with an edge from a dependency
          have lastEdge : ∀ index, storage.graph.Reaches index nodeId → index = nodeId ∨
              ∃ dependency, storage.graph.Reaches index dependency ∧
                dependency ∈ storage.getDirectDependencies nodeId := by
            intro index reaches
            rcases Relation.ReflTransGen.cases_tail reaches with same | ⟨dependency, before, edge⟩
            · exact .inl same.symm
            · refine .inr ⟨dependency, before, ?_⟩
              rw [getDirectDependencies, StableGraph.mem_neighborsDirected_incoming]
              exact edge
          split at collected
          case h_1 absent =>
            obtain ⟨keeps, reached⟩ := induction collected
            refine ⟨fun index member => keeps index (List.mem_cons_of_mem _ member), ?_⟩
            intro target listed index reaches
            rcases List.mem_cons.mp listed with rfl | later
            · rcases lastEdge index reaches with rfl | ⟨dependency, _, edge⟩
              · exact keeps _ (List.mem_cons_self ..)
              · -- an edge into `target` would make it a node of the graph
                rw [getDirectDependencies, StableGraph.mem_neighborsDirected_incoming] at edge
                have present := (storage.graph.edges_mem _ edge).2
                rw [← isSome_pooled] at present
                simp [pooled, absent] at present
            · exact reached target later index reaches
          case h_2 node found =>
            split_ifs at collected
            obtain ⟨keeps, reached⟩ := induction collected
            refine ⟨fun index member => keeps index (List.mem_cons_of_mem _ member), ?_⟩
            intro target listed index reaches
            rcases List.mem_cons.mp listed with rfl | later
            · rcases lastEdge index reaches with rfl | ⟨dependency, before, edge⟩
              · exact keeps _ (List.mem_cons_self ..)
              · exact reached dependency (List.mem_append_left _ (List.mem_reverse.mpr edge))
                  index before
            · exact reached target (List.mem_append_right _ later) index reaches

theorem collectInputDependencies_present (exact : storage.CachesExact) :
    ∀ {inputs : List Input} {directDependencies result : List NodeIndex},
      storage.collectInputDependencies inputs directDependencies = .ok result →
      (∀ index ∈ directDependencies, index ∈ storage.graph.nodes) →
      ∀ index ∈ result, index ∈ storage.graph.nodes := by
  intro inputs
  induction inputs with
  | nil =>
      intro directDependencies result collected present
      cases collected
      exact present
  | cons input inputs induction =>
      intro directDependencies result collected present
      simp only [collectInputDependencies] at collected
      split at collected
      case h_1 => exact induction collected present
      case h_2 nodeId creator =>
        split_ifs at collected
        apply induction collected
        intro index listed
        rcases List.mem_insert_iff.mp listed with rfl | old
        · -- a creator the caches know is a pooled node
          rw [← isSome_pooled]
          cases input with
          | coin utxoId =>
              obtain ⟨value, found, _⟩ := (exact.coinsCreators utxoId index).mp creator
              simp [found]
          | message nonce => cases creator
          | contract contractId =>
              obtain ⟨value, found, _⟩ := (exact.contractsCreators contractId index).mp creator
              simp [found]
        · exact present index old

/-- What `can_store_transaction` guarantees of the transaction it checked: its direct
dependencies are nodes, and all their transitive dependencies are collected. -/
structure DependenciesCollected (checked : CheckedTransaction) : Prop where
  present : ∀ dependency ∈ checked.directDependencies, dependency ∈ storage.graph.nodes
  closed : ∀ dependency ∈ checked.directDependencies, ∀ index,
    storage.graph.Reaches index dependency → index ∈ checked.allDependencies
  noneWithout : checked.directDependencies = [] → checked.allDependencies = []

theorem canStoreTransaction_ok (exact : storage.CachesExact) {transaction : PoolTransaction}
    {checked : CheckedTransaction} (stored : storage.canStoreTransaction transaction = .ok checked) :
    checked.tx = transaction ∧ storage.DependenciesCollected checked := by
  unfold canStoreTransaction at stored
  split at stored
  · cases stored
  case h_2 directDependencies collected =>
    split at stored
    · cases stored
    case h_2 allDependencies walked =>
      cases stored
      refine ⟨rfl, ⟨collectInputDependencies_present storage exact collected (by simp), ?_, ?_⟩⟩
      · intro dependency listed index reaches
        exact (collectAllDependencies_complete storage walked).2 dependency
          (List.mem_reverse.mpr listed) index reaches
      · intro noDirect
        simp only at noDirect
        subst noDirect
        simp only [List.reverse_nil, collectAllDependencies, Except.ok.injEq] at walked
        exact walked.symm

theorem DependenciesCollected.allDependencies_eq_nil {checked : CheckedTransaction}
    (collected : storage.DependenciesCollected checked) :
    checked.allDependencies = [] ↔ checked.directDependencies = [] := by
  constructor
  · intro noneAll
    cases direct : checked.directDependencies with
    | nil => rfl
    | cons dependency _ =>
        have listed := collected.closed dependency (by simp [direct]) dependency
          Relation.ReflTransGen.refl
        simp [noneAll] at listed
  · exact collected.noneWithout

/-- What storing `entry` at `index` does: the index was free, the other nodes keep what
they hold, an edge comes in from each direct dependency, and the caches learn the new
transaction's coins and contracts. -/
structure Stored (storage storage' : GraphStorage) (index : NodeIndex) (entry : StorageData)
    (directDependencies : List NodeIndex) : Prop where
  fresh : index ∉ storage.graph.nodes
  config : storage'.config = storage.config
  get : storage'.get index = some entry
  pooled : storage'.pooled = Function.update storage.pooled index (some entry.identity)
  edges : (∀ dependency ∈ directDependencies, dependency ∈ storage.graph.nodes) →
    ∀ edge, edge ∈ storage'.graph.edges ↔
      edge ∈ storage.graph.edges ∨ (edge.2 = index ∧ edge.1 ∈ directDependencies)
  coinsCreators : storage'.coinsCreators =
    insertKeys entry.transaction.coinOutputs index storage.coinsCreators
  contractsCreators : storage'.contractsCreators =
    insertKeys entry.transaction.createdContracts index storage.contractsCreators

theorem storeTransaction_stored (checked : CheckedTransaction) (creationInstant : ℕ) :
    Stored storage (storage.storeTransaction checked creationInstant).1
      (storage.storeTransaction checked creationInstant).2
      (StorageData.ofTransaction checked.tx creationInstant) checked.directDependencies := by
  -- the totals of all dependencies grow first, which changes nothing else
  obtain ⟨grown, reweighted, grownEq⟩ : ∃ grown, Reweighted storage grown ∧
      checked.allDependencies.foldl (fun storage nodeId =>
        { storage with
          graph := storage.graph.modifyNode nodeId fun node =>
            StorageData.withDependent node checked.tx }) storage = grown :=
    ⟨_, Reweighted.foldl storage _ (fun storage nodeId => reweighted_modifyNode storage nodeId
      (fun node => StorageData.withDependent node checked.tx) fun _ => rfl) _, rfl⟩
  simp only [storeTransaction, grownEq, StableGraph.addNode_index]
  generalize added : StorageData.ofTransaction checked.tx creationInstant = entry
  have transactionOf : entry.transaction = checked.tx := by rw [← added]; rfl
  set index := grown.graph.nextIndex with indexEq
  set graph := checked.directDependencies.foldl (fun graph dependency =>
    graph.addEdge dependency index) (grown.graph.addNode entry).1
  have nodesAfter : graph.nodes = grown.graph.nodes.insert index entry := by
    rw [StableGraph.foldl_addEdge_nodes, StableGraph.addNode_nodes]
  have getIndex : ({ grown with graph } : GraphStorage).get index = some entry := by
    simp [get, StableGraph.nodeWeight, nodesAfter, AList.lookup_insert]
  have fresh : index ∉ storage.graph.nodes := by
    rw [← reweighted.mem_nodes]
    exact grown.graph.nextIndex_not_mem
  refine ⟨fresh, ?_, ?_, ?_, ?_, ?_, ?_⟩
  · rw [cacheTxInfos_config]
    exact reweighted.config
  · rw [get, cacheTxInfos_graph]
    exact getIndex
  · funext other
    simp only [pooled, get, cacheTxInfos_graph, StableGraph.nodeWeight, nodesAfter]
    by_cases same : other = index
    · subst same
      simp [AList.lookup_insert]
    · rw [AList.lookup_insert_ne same, Function.update_of_ne same, ← reweighted.pooled]
      rfl
  · intro present edge
    rw [cacheTxInfos_graph, StableGraph.mem_foldl_addEdge_edges, StableGraph.addNode_edges,
      reweighted.edges]
    · intro dependency listed
      rw [StableGraph.addNode_nodes, AList.mem_insert, reweighted.mem_nodes]
      exact .inr (present dependency listed)
    · rw [StableGraph.addNode_nodes, AList.mem_insert]
      exact .inl rfl
  · rw [← transactionOf, cacheTxInfos_coinsCreators _ getIndex, reweighted.coinsCreators]
  · rw [← transactionOf, cacheTxInfos_contractsCreators _ getIndex, reweighted.contractsCreators]

section Stored

variable {storage storage' : GraphStorage} {index : NodeIndex} {entry : StorageData}
  {directDependencies : List NodeIndex}

theorem Stored.total_eq
    (stored : Stored storage storage' index entry directDependencies) (f : PoolTransaction → ℕ) :
    AList.total (fun data => f data.transaction) storage'.graph.nodes =
      f entry.transaction + AList.total (fun data => f data.transaction) storage.graph.nodes := by
  have inserted : AList.total (fun data => f data.transaction) storage'.graph.nodes =
      AList.total (fun data => f data.transaction) (storage.graph.nodes.insert index entry) := by
    apply total_congr
    intro other
    rw [map_lookup_nodes, stored.pooled]
    by_cases same : other = index
    · subst same
      simp [AList.lookup_insert, StorageData.identity]
    · rw [Function.update_of_ne same, AList.lookup_insert_ne same, map_lookup_nodes]
  rw [inserted, total_insert_of_notMem _ stored.fresh]

theorem Stored.executable (stored : Stored storage storage' index entry directDependencies)
    (present : ∀ dependency ∈ directDependencies, dependency ∈ storage.graph.nodes) :
    storage'.executable = Function.update storage.executable index
      (if directDependencies = [] then some entry.identity else none) := by
  have edges := stored.edges present
  have oldEdge : ∀ source, (source, index) ∉ storage.graph.edges :=
    fun source edge => stored.fresh (storage.graph.edges_mem _ edge).2
  funext other
  by_cases same : other = index
  · subst same
    have depends : storage'.hasDependencies other = !directDependencies.isEmpty := by
      rw [Bool.eq_iff_iff, hasDependencies_iff]
      simp only [edges, oldEdge, false_or, true_and, Bool.not_eq_true', List.isEmpty_eq_false_iff_exists_mem]
    rw [Function.update_self, GraphStorage.executable, depends, stored.pooled, Function.update_self]
    cases directDependencies <;> simp
  · have depends : storage'.hasDependencies other = storage.hasDependencies other := by
      rw [Bool.eq_iff_iff, hasDependencies_iff, hasDependencies_iff]
      simp only [edges, same, false_and, or_false]
    rw [Function.update_of_ne same, GraphStorage.executable, GraphStorage.executable, depends,
      stored.pooled, Function.update_of_ne same]

theorem Stored.idsDistinct (stored : Stored storage storage' index entry directDependencies)
    (distinct : storage.IdsDistinct)
    (freshId : ∀ other held, storage.pooled other = some held → held.1.id ≠ entry.transaction.id) :
    storage'.IdsDistinct := by
  intro first second held held' firstFound secondFound sameId
  rw [stored.pooled] at firstFound secondFound
  by_cases firstNew : first = index <;> by_cases secondNew : second = index
  · rw [firstNew, secondNew]
  · subst firstNew
    rw [Function.update_self, Option.some.injEq] at firstFound
    rw [Function.update_of_ne secondNew] at secondFound
    exact absurd (sameId.symm.trans (congrArg (·.1.id) firstFound.symm))
      (freshId second held' secondFound)
  · subst secondNew
    rw [Function.update_self, Option.some.injEq] at secondFound
    rw [Function.update_of_ne firstNew] at firstFound
    exact absurd (sameId.trans (congrArg (·.1.id) secondFound.symm)) (freshId first held firstFound)
  · rw [Function.update_of_ne firstNew] at firstFound
    rw [Function.update_of_ne secondNew] at secondFound
    exact distinct first second held held' firstFound secondFound sameId

end Stored

end GraphStorage

end FuelCore.TxPool
