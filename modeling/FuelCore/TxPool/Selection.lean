import FuelCore.TxPool.GraphStorage
import Mathlib.Algebra.Order.Field.Rat

/-! # Selecting transactions for a block

`selection_algorithms/ratio_tip_gas.rs`: the executable transactions (those with no
dependency in the pool) sit in a map ordered by their tip-per-gas ratio. A block takes
them from the best ratio down, as long as the gas, size and count budgets allow, and
each selected transaction leaves the graph; the dependents it leaves without any
dependency become executable at the end of the pass, and a new pass starts while the
budgets last and passes still select something.

`Ratio<u64>` is a rational number; the ratio of a transaction with no gas, which the
source never builds (a transaction with zero max gas is refused), is `0` here. The outer
loop selects a transaction in every pass but its last, so the number of pooled
transactions plus one passes are enough.
-/

namespace FuelCore.TxPool

structure Constraints where
  minimalGasPrice : ℕ
  maxGas : ℕ
  maximumTxs : ℕ
  maximumBlockSize : ℕ
  excludedContracts : List ContractId

/-- `Key`: the ratio, then the creation instant, then the transaction id. -/
structure Key where
  ratio : ℚ
  creationInstant : ℕ
  txId : TxId
  deriving DecidableEq

/-- `Ord for Key`: by ratio, then the older transaction above the newer, then by id. -/
def Key.cmp (key other : Key) : Ordering :=
  match compare key.ratio other.ratio with
  | .eq =>
      match compare other.creationInstant key.creationInstant with
      | .eq => compare key.txId other.txId
      | instantCmp => instantCmp
  | cmp => cmp

structure RatioTipGasSelection where
  /-- `executable_transactions_sorted_tip_gas_ratio`, keyed by `Reverse<Key>`. -/
  executableTransactionsSortedTipGasRatio : AList fun _ : Key => NodeIndex

namespace RatioTipGasSelection

/-- `RatioTipGasSelection::new`. -/
def new : RatioTipGasSelection :=
  ⟨∅⟩

/-- `key`: the ratio of the tip plus one to the max gas. -/
def key (storeEntry : StorageData) : Key :=
  ⟨(storeEntry.transaction.tip + 1 : ℚ) / storeEntry.transaction.maxGas,
    storeEntry.creationInstant, storeEntry.transaction.id⟩

variable (selection : RatioTipGasSelection)

/-- The entries in the map's order: the greatest key first, since the map is keyed by
`Reverse<Key>`. -/
def sortedEntries : List (Key × NodeIndex) :=
  (selection.executableTransactionsSortedTipGasRatio.entries.map fun entry =>
    (entry.1, entry.2)).mergeSort fun first second => Key.cmp first.1 second.1 != .lt

/-- `new_executable_transaction`. -/
def newExecutableTransaction (storageId : NodeIndex) (storeEntry : StorageData) :
    RatioTipGasSelection :=
  ⟨selection.executableTransactionsSortedTipGasRatio.insert (key storeEntry) storageId⟩

/-- `on_removed_transaction_inner`. -/
def onRemovedTransactionInner (key : Key) : RatioTipGasSelection :=
  ⟨selection.executableTransactionsSortedTipGasRatio.erase key⟩

/-- `on_removed_transaction`. -/
def onRemovedTransaction (storageEntry : StorageData) : RatioTipGasSelection :=
  selection.onRemovedTransactionInner (key storageEntry)

/-- `get_less_worth_txs`: the executable transactions, the smallest key first. -/
def getLessWorthTxs : List NodeIndex :=
  selection.sortedEntries.reverse.map (·.2)

/-! ## Gathering the best transactions -/

/-- The state of one pass of `gather_best_txs` over the map. -/
structure GatherPass where
  storage : GraphStorage
  gasLeft : ℕ
  spaceLeft : ℕ
  nbLeft : ℕ
  result : List StorageData
  cleanUpList : List Key
  transactionsToRemove : List Key
  transactionsToPromote : List NodeIndex

/-- Whether the transaction uses one of the excluded contracts. -/
def usesExcludedContract (constraints : Constraints) (transaction : PoolTransaction) : Bool :=
  transaction.inputs.any fun
    | .contract contractId => decide (contractId ∈ constraints.excludedContracts)
    | _ => false

/-- The `'outer` loop over the map's entries: select every transaction that fits. -/
def gatherPass (constraints : Constraints) : List (Key × NodeIndex) → GatherPass → GatherPass
  | [], pass => pass
  | (key, storageId) :: entries, pass =>
      if pass.nbLeft = 0 ∨ pass.gasLeft = 0 ∨ pass.spaceLeft = 0 then pass
      else
        match pass.storage.get storageId with
        | none =>
            gatherPass constraints entries
              { pass with transactionsToRemove := pass.transactionsToRemove ++ [key] }
        | some storedTransaction =>
            let transaction := storedTransaction.transaction
            if usesExcludedContract constraints transaction then gatherPass constraints entries pass
            else if transaction.maxGasPrice < constraints.minimalGasPrice then
              gatherPass constraints entries pass
            else if pass.gasLeft < transaction.maxGas ∨ pass.spaceLeft < transaction.meteredBytesSize then
              gatherPass constraints entries pass
            else
              let dependents := pass.storage.getDirectDependents storageId
              match pass.storage.removeTransaction storageId with
              -- the `expect` on the node just found
              | (_, none) => gatherPass constraints entries pass
              | (storage, some removed) =>
                  gatherPass constraints entries
                    { pass with
                      storage
                      gasLeft := pass.gasLeft - transaction.maxGas
                      spaceLeft := pass.spaceLeft - transaction.meteredBytesSize
                      nbLeft := pass.nbLeft - 1
                      result := pass.result ++ [removed]
                      cleanUpList := pass.cleanUpList ++ [key]
                      transactionsToPromote := pass.transactionsToPromote ++
                        dependents.filter fun dependent => !storage.hasDependencies dependent }

/-- Make the promoted transactions executable. -/
def promote (storage : GraphStorage) (transactionsToPromote : List NodeIndex) :
    RatioTipGasSelection :=
  transactionsToPromote.foldl (fun selection promote =>
    match storage.get promote with
    | some storageData => selection.newExecutableTransaction promote storageData
    | none => selection) selection

/-- The `while` loop of `gather_best_txs`: passes over the map while budgets last. -/
def gatherLoop (constraints : Constraints) :
    ℕ → RatioTipGasSelection → GatherPass → RatioTipGasSelection × GraphStorage × List StorageData
  | 0, selection, pass => (selection, pass.storage, pass.result)
  | fuel + 1, selection, pass =>
      if 0 < pass.gasLeft ∧ 0 < pass.nbLeft ∧ 0 < pass.spaceLeft ∧
          selection.executableTransactionsSortedTipGasRatio.entries ≠ [] then
        let next := gatherPass constraints selection.sortedEntries
          { pass with cleanUpList := [], transactionsToRemove := [], transactionsToPromote := [] }
        let selection := next.transactionsToRemove.foldl onRemovedTransactionInner selection
        if next.cleanUpList.isEmpty ∧ next.transactionsToPromote.isEmpty then
          (selection, next.storage, next.result)
        else
          let selection := next.cleanUpList.foldl onRemovedTransactionInner selection
          gatherLoop constraints fuel (selection.promote next.storage next.transactionsToPromote) next
      else (selection, pass.storage, pass.result)

/-- `gather_best_txs`: the selection, the storage and the selected transactions. -/
def gatherBestTxs (constraints : Constraints) (storage : GraphStorage) :
    RatioTipGasSelection × GraphStorage × List StorageData :=
  gatherLoop constraints (storage.graph.nodes.entries.length + 1) selection
    ⟨storage, constraints.maxGas, constraints.maximumBlockSize, constraints.maximumTxs,
      [], [], [], []⟩

end RatioTipGasSelection

end FuelCore.TxPool
