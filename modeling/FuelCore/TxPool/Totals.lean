import FuelCore.TxPool.Pool
import Mathlib.Algebra.BigOperators.Group.Finset.Basic

/-! # The totals of the dependency graph

Every node of the graph carries the total gas, tip and size and the number of
transactions over itself and its transitive dependents, the relation
`GraphStorage::check_integrity` checks. Storing a transaction adds it to the totals of
all its dependencies and the breadth-first removal subtracts a removed subtree from
them, but `remove_transaction` subtracts nothing: it is exact only for a transaction
without dependencies, as the executable transactions a block takes. A committed or
preconfirmed transaction is removed that way whatever its dependencies, and a committed
transaction can still depend on a pooled one: here the pooled transaction creates a
contract, the transaction using the contract is committed (say in a block where another
transaction created the same contract), and the creator's totals keep the removed user.

The same two transactions committed together show the order of a block's ids mattering to
`process_committed_transactions`: it collects the dependents a removal leaves without
dependency before it has removed the later ids, so a dependent committed after its parent
is collected and gone by the time it is promoted.
-/

namespace FuelCore.TxPool

namespace GraphStorage

open Classical in
/-- The node at `index` with all its transitive dependents. -/
noncomputable def subtree (storage : GraphStorage) (index : NodeIndex) : Finset NodeIndex :=
  storage.graph.nodes.keys.toFinset.filter fun other => storage.graph.Reaches index other

def sumOver (storage : GraphStorage) (nodes : Finset NodeIndex) (f : StorageData → ℕ) : ℕ :=
  ∑ index ∈ nodes, ((storage.get index).map f).getD 0

/-- The relation `check_integrity` checks: the totals of every node are the sums over its
subtree. -/
def TotalsExact (storage : GraphStorage) : Prop :=
  ∀ index data, storage.get index = some data →
    data.dependentsCumulativeGas = storage.sumOver (storage.subtree index) (·.transaction.maxGas) ∧
    data.dependentsCumulativeTip = storage.sumOver (storage.subtree index) (·.transaction.tip) ∧
    data.dependentsCumulativeBytesSize =
      storage.sumOver (storage.subtree index) (·.transaction.meteredBytesSize) ∧
    data.numberDependentsInChain = (storage.subtree index).card

theorem subtree_of_edges_nil (storage : GraphStorage) (noEdges : storage.graph.edges = [])
    {index : NodeIndex} (present : index ∈ storage.graph.nodes) :
    storage.subtree index = {index} := by
  ext other
  simp only [subtree, Finset.mem_filter, List.mem_toFinset, Finset.mem_singleton]
  constructor
  · rintro ⟨-, reaches⟩
    cases reaches.cases_head with
    | inl same => exact same.symm
    | inr step =>
        obtain ⟨next, edge, -⟩ := step
        simp [noEdges] at edge
  · rintro rfl
    exact ⟨(AList.mem_keys).mp present, Relation.ReflTransGen.refl⟩

end GraphStorage

/-! ## A committed dependent -/

/-- A transaction creating contract `7`. -/
def contractCreator : PoolTransaction :=
  ⟨1, [], [.contractCreated 7], 0, 1, 1, 0, none⟩

/-- A transaction using contract `7`. -/
def contractUser : PoolTransaction :=
  ⟨2, [.contract 7], [], 0, 2, 1, 0, none⟩

/-- An environment that accepts every insertion. -/
def acceptingEnvironment : InsertEnvironment :=
  ⟨false, false, false, true, 0⟩

/-- Limits no transaction here comes near. -/
def roomyConfig : Config :=
  ⟨⟨10, 100, 100⟩⟩

/-- The creator, then its user, go into a new pool; the user is committed. -/
def committedDependentTrace : List Call :=
  [.insert contractCreator acceptingEnvironment, .insert contractUser acceptingEnvironment,
    .processCommittedTransactions [contractUser.id]]

/-- The pool after `committedDependentTrace`. -/
def committedDependentPool : Pool :=
  runCalls (Pool.new (GraphStorage.new ⟨10⟩) .new .new roomyConfig) committedDependentTrace

theorem committed_dependent_leaves_stale_totals :
    ¬ committedDependentPool.storage.TotalsExact := by
  intro exact
  have stored : committedDependentPool.storage.get 0 = some ⟨contractCreator, 0, 3, 2, 2, 0⟩ := by
    decide
  have noEdges : committedDependentPool.storage.graph.edges = [] := by decide
  have present : 0 ∈ committedDependentPool.storage.graph.nodes := by decide
  obtain ⟨gas, -⟩ := exact 0 _ stored
  rw [GraphStorage.subtree_of_edges_nil _ noEdges present, GraphStorage.sumOver,
    Finset.sum_singleton, stored] at gas
  -- the creator alone has gas 1, its totals still count the user's 2
  simp [contractCreator] at gas

/-! ## A committed parent and its dependent -/

/-- The creator and its user in a new pool. -/
def creatorAndUserPool : Pool :=
  runCalls (Pool.new (GraphStorage.new ⟨10⟩) .new .new roomyConfig)
    [.insert contractCreator acceptingEnvironment, .insert contractUser acceptingEnvironment]

/-- A block commits both. Walked creator first, the first loop of
`process_committed_transactions` collects the user for promotion when the creator goes and
then removes the user itself, so the promotion loop meets a node with no storage data.
Walked user first, every collected node is still stored. -/
theorem committed_parent_before_dependent_leaves_promotion_without_data :
    (∃ promote ∈ (creatorAndUserPool.removeCommitted [contractCreator.id, contractUser.id] []).2,
      (creatorAndUserPool.removeCommitted [contractCreator.id, contractUser.id] []).1.storage.get
        promote = none) ∧
    ∀ promote ∈ (creatorAndUserPool.removeCommitted [contractUser.id, contractCreator.id] []).2,
      (creatorAndUserPool.removeCommitted [contractUser.id, contractCreator.id] []).1.storage.get
        promote ≠ none := by
  decide

end FuelCore.TxPool
