import FuelCore.TxPool.PoolSpec
import FuelCore.TxPool.Totals

/-! # What `gather_best_txs` returns

The transactions `gather_best_txs` selects fit the block: their gas and sizes add up to at
most the budgets, they are at most as many as allowed, each pays the minimal gas price and
uses no excluded contract, and each comes after the transactions it depends on. When the loop
stops with every budget left, no executable transaction is left that the last pass could have
taken. The loop stops within its fuel: a pass that does not end it selects a transaction.

One visit of a pass to an entry of the map either stops the pass (a budget is spent), marks a
missing node for removal, skips the transaction, or selects it. `visitEntry` is that visit, and
`visitEntry_cases` says what it does once for every lemma below.
-/

namespace FuelCore.TxPool

open GraphStorage

namespace RatioTipGasSelection

variable (constraints : Constraints)

/-- Why a pass leaves a transaction in the pool. -/
def Skipped (pass : GatherPass) (transaction : PoolTransaction) : Prop :=
  usesExcludedContract constraints transaction = true ∨
    transaction.maxGasPrice < constraints.minimalGasPrice ∨
    pass.gasLeft < transaction.maxGas ∨ pass.spaceLeft < transaction.meteredBytesSize

/-- The budgets left and the transactions selected add up to the constraints, and every
selected transaction was admitted. -/
structure Budgeted (pass : GatherPass) : Prop where
  gas : pass.gasLeft + (pass.result.map (·.transaction.maxGas)).sum = constraints.maxGas
  space : pass.spaceLeft + (pass.result.map (·.transaction.meteredBytesSize)).sum =
    constraints.maximumBlockSize
  count : pass.nbLeft + pass.result.length = constraints.maximumTxs
  admitted : ∀ data ∈ pass.result, usesExcludedContract constraints data.transaction = false ∧
    constraints.minimalGasPrice ≤ data.transaction.maxGasPrice

/-- The visit of one entry by a pass whose budgets are not spent. -/
def visitEntry : Key × NodeIndex → GatherPass → GatherPass
  | (key, storageId), pass =>
      match pass.storage.get storageId with
      | none => { pass with transactionsToRemove := pass.transactionsToRemove ++ [key] }
      | some storedTransaction =>
          let transaction := storedTransaction.transaction
          if usesExcludedContract constraints transaction then pass
          else if transaction.maxGasPrice < constraints.minimalGasPrice then pass
          else if pass.gasLeft < transaction.maxGas ∨
              pass.spaceLeft < transaction.meteredBytesSize then pass
          else
            let dependents := pass.storage.getDirectDependents storageId
            match pass.storage.removeTransaction storageId with
            | (_, none) => pass
            | (storage, some removed) =>
                { pass with
                  storage
                  gasLeft := pass.gasLeft - transaction.maxGas
                  spaceLeft := pass.spaceLeft - transaction.meteredBytesSize
                  nbLeft := pass.nbLeft - 1
                  result := pass.result ++ [removed]
                  cleanUpList := pass.cleanUpList ++ [key]
                  transactionsToPromote := pass.transactionsToPromote ++
                    dependents.filter fun dependent => !storage.hasDependencies dependent }

/-- Whether a budget of the pass is spent, which ends the pass. -/
def Spent (pass : GatherPass) : Prop :=
  pass.nbLeft = 0 ∨ pass.gasLeft = 0 ∨ pass.spaceLeft = 0

instance (pass : GatherPass) : Decidable (Spent pass) :=
  inferInstanceAs (Decidable (_ ∨ _))

theorem gatherPass_cons (entry : Key × NodeIndex) (entries : List (Key × NodeIndex))
    (pass : GatherPass) :
    gatherPass constraints (entry :: entries) pass =
      if Spent pass then pass else gatherPass constraints entries (visitEntry constraints entry pass) := by
  obtain ⟨key, storageId⟩ := entry
  simp only [gatherPass, visitEntry, Spent]
  split_ifs
  · rfl
  cases pass.storage.get storageId with
  | none => rfl
  | some data =>
      simp only
      split_ifs
      · rfl
      · rfl
      · rfl
      · cases pass.storage.removeTransaction storageId with
        | mk storage removed => cases removed <;> rfl

/-- What one visit does: a missing node is marked for removal, a skipped transaction leaves
the pass as it was, and a selected one leaves the graph and the budgets. -/
theorem visitEntry_cases (key : Key) (storageId : NodeIndex) (pass : GatherPass) :
    (pass.storage.get storageId = none ∧
        visitEntry constraints (key, storageId) pass =
          { pass with transactionsToRemove := pass.transactionsToRemove ++ [key] }) ∨
      (∃ data, pass.storage.get storageId = some data ∧ Skipped constraints pass data.transaction ∧
        visitEntry constraints (key, storageId) pass = pass) ∨
      (∃ data storage, pass.storage.get storageId = some data ∧
        ¬Skipped constraints pass data.transaction ∧
        RemovedNodes pass.storage storage [(storageId, data)] ∧
        visitEntry constraints (key, storageId) pass =
          { pass with
            storage
            gasLeft := pass.gasLeft - data.transaction.maxGas
            spaceLeft := pass.spaceLeft - data.transaction.meteredBytesSize
            nbLeft := pass.nbLeft - 1
            result := pass.result ++ [data]
            cleanUpList := pass.cleanUpList ++ [key]
            transactionsToPromote := pass.transactionsToPromote ++
              (pass.storage.getDirectDependents storageId).filter fun dependent =>
                !storage.hasDependencies dependent }) := by
  cases found : pass.storage.get storageId with
  | none =>
      left
      simp only [visitEntry, found, and_self]
  | some data =>
      right
      by_cases skipped : Skipped constraints pass data.transaction
      · left
        refine ⟨data, rfl, skipped, ?_⟩
        unfold Skipped at skipped
        simp only [visitEntry, found]
        split_ifs with excluded cheap tooBig
        · rfl
        · rfl
        · rfl
        · -- a skipped transaction fails one of the three tests
          exfalso
          rcases skipped with excluded' | cheap' | tooBig'
          · exact excluded excluded'
          · exact cheap cheap'
          · exact tooBig tooBig'
      · right
        obtain ⟨removedSome, removal⟩ := pass.storage.removeTransaction_of_present found
        refine ⟨data, (pass.storage.removeTransaction storageId).1, rfl, skipped, removal, ?_⟩
        unfold Skipped at skipped
        simp only [not_or, Bool.not_eq_true, Nat.not_lt] at skipped
        obtain ⟨notExcluded, paying, gasFits, spaceFits⟩ := skipped
        have taken : pass.storage.removeTransaction storageId =
            ((pass.storage.removeTransaction storageId).1, some data) := Prod.ext rfl removedSome
        simp only [visitEntry, found, notExcluded, Bool.false_eq_true, if_false,
          Nat.not_lt.mpr paying, Nat.not_lt.mpr gasFits, Nat.not_lt.mpr spaceFits, or_self]
        rw [taken]

/-! ## One pass -/

section Pass

variable {constraints}

theorem Budgeted.visitEntry {pass : GatherPass} (budgeted : Budgeted constraints pass)
    (going : ¬Spent pass) (entry : Key × NodeIndex) :
    Budgeted constraints (visitEntry constraints entry pass) := by
  obtain ⟨key, storageId⟩ := entry
  rcases visitEntry_cases constraints key storageId pass with
    ⟨-, missing⟩ | ⟨data, -, -, skipped⟩ | ⟨data, storage, -, taken, -, selected⟩
  · rw [missing]
    exact ⟨budgeted.gas, budgeted.space, budgeted.count, budgeted.admitted⟩
  · rw [skipped]
    exact budgeted
  · rw [selected]
    unfold Skipped at taken
    unfold Spent at going
    simp only [not_or, Bool.not_eq_true, Nat.not_lt] at taken going
    obtain ⟨notExcluded, paying, gasFits, spaceFits⟩ := taken
    have gas := budgeted.gas
    have space := budgeted.space
    have count := budgeted.count
    refine ⟨?_, ?_, ?_, ?_⟩
    · simp only [List.map_append, List.map_singleton, List.sum_append, List.sum_singleton]
      omega
    · simp only [List.map_append, List.map_singleton, List.sum_append, List.sum_singleton]
      omega
    · simp only [List.length_append, List.length_singleton]
      omega
    · intro selectedData listed
      rcases List.mem_append.mp listed with earlier | now
      · exact budgeted.admitted selectedData earlier
      · rw [List.mem_singleton.mp now]
        exact ⟨notExcluded, paying⟩

theorem Budgeted.gatherPass {pass : GatherPass} (budgeted : Budgeted constraints pass)
    (entries : List (Key × NodeIndex)) :
    Budgeted constraints (gatherPass constraints entries pass) := by
  induction entries generalizing pass with
  | nil => exact budgeted
  | cons entry entries induction =>
      rw [gatherPass_cons]
      split_ifs with spent
      · exact budgeted
      · exact induction (budgeted.visitEntry spent entry)

theorem result_prefix_gatherPass (entries : List (Key × NodeIndex)) (pass : GatherPass) :
    pass.result <+: (gatherPass constraints entries pass).result := by
  induction entries generalizing pass with
  | nil => exact List.prefix_refl _
  | cons entry entries induction =>
      rw [gatherPass_cons]
      split_ifs
      · exact List.prefix_refl _
      · obtain ⟨key, storageId⟩ := entry
        refine List.IsPrefix.trans ?_ (induction _)
        rcases visitEntry_cases constraints key storageId pass with
          ⟨-, missing⟩ | ⟨-, -, -, skipped⟩ | ⟨data, storage, -, -, -, selected⟩
        · rw [missing]
        · rw [skipped]
        · rw [selected]
          exact List.prefix_append _ _

/-- A pass that selects nothing, with its budgets left, skipped every transaction it found:
its budgets never changed, so none was spent on the way. -/
theorem skipped_of_gatherPass_idle :
    ∀ {entries : List (Key × NodeIndex)} {pass : GatherPass}, ¬Spent pass →
      (gatherPass constraints entries pass).result = pass.result →
      ∀ entry ∈ entries, ∀ data, pass.storage.get entry.2 = some data →
        Skipped constraints pass data.transaction := by
  intro entries
  induction entries with
  | nil => intro _ _ _ entry listed; cases listed
  | cons first entries induction =>
      intro pass going idle entry listed data found
      obtain ⟨key, storageId⟩ := first
      rw [gatherPass_cons, if_neg going] at idle
      rcases visitEntry_cases constraints key storageId pass with
        ⟨absent, missing⟩ | ⟨skippedData, foundSkipped, skipped, same⟩ |
          ⟨selectedData, storage, -, -, -, selected⟩
      · rw [missing] at idle
        rcases List.mem_cons.mp listed with rfl | later
        · rw [absent] at found
          cases found
        · exact @induction { pass with transactionsToRemove := pass.transactionsToRemove ++ [key] }
            going idle entry later data found
      · rw [same] at idle
        rcases List.mem_cons.mp listed with rfl | later
        · rw [foundSkipped, Option.some.injEq] at found
          rw [← found]
          exact skipped
        · exact induction going idle entry later data found
      · -- a selection makes the result longer, which the idle pass never does
        exfalso
        have longer := (@result_prefix_gatherPass constraints entries
          (visitEntry constraints (key, storageId) pass)).length_le
        rw [idle, selected] at longer
        simp only [List.length_append, List.length_singleton] at longer
        omega

end Pass

/-! ## The loop -/

/-- Every selected transaction comes after the transactions it depends on in `origin`. -/
def DependenciesFirst (origin : GraphStorage) (removed : List (NodeIndex × StorageData)) : Prop :=
  ∀ before entry after, removed = before ++ entry :: after →
    ∀ source, (source, entry.1) ∈ origin.graph.edges → source ∈ before.map Prod.fst

theorem DependenciesFirst.append {origin : GraphStorage}
    {removed passed : List (NodeIndex × StorageData)} (first : DependenciesFirst origin removed)
    (second : ∀ entry ∈ passed, ∀ source, (source, entry.1) ∈ origin.graph.edges →
      source ∈ removed.map Prod.fst) :
    DependenciesFirst origin (removed ++ passed) := by
  intro before entry after split source edge
  rcases List.append_eq_append_iff.mp split with ⟨rest, rfl, later⟩ | ⟨middle, earlier, entries⟩
  · rw [List.map_append]
    exact List.mem_append_left _ (second entry (later ▸ List.mem_append_right _ List.mem_cons_self)
      source edge)
  · cases middle with
    | nil =>
        rw [List.nil_append] at entries
        rw [List.append_nil] at earlier
        subst earlier
        exact second entry (entries ▸ List.mem_cons_self) source edge
    | cons first' middle =>
        obtain ⟨rfl, -⟩ := List.cons_eq_cons.mp entries
        exact first before entry middle earlier source edge

/-- In a pass from a graph left by earlier selections, a selected transaction's dependencies
were all selected earlier: it had no dependency left in that graph. -/
theorem PassInvariant.dependencies_removed {origin : GraphStorage} {pass next : GatherPass}
    {removed passed : List (NodeIndex × StorageData)}
    (removal : RemovedNodes origin pass.storage removed)
    (invariant : PassInvariant pass.storage pass.result next passed) :
    ∀ entry ∈ passed, ∀ source, (source, entry.1) ∈ origin.graph.edges →
      source ∈ removed.map Prod.fst := by
  intro entry listed source edge
  obtain ⟨free, found⟩ := (executable_eq_some _).mp (invariant.executable entry listed)
  have kept : entry.1 ∉ removed.map Prod.fst := by
    intro gone
    rw [removal.pooled, if_pos gone] at found
    cases found
  by_contra notRemoved
  have stays : (source, entry.1) ∈ pass.storage.graph.edges :=
    (removal.edges _).mpr ⟨edge, notRemoved, kept⟩
  rw [← Bool.not_eq_true, hasDependencies_iff] at free
  exact free ⟨source, stays⟩

/-- The loop's state between passes, for a loop started on the graph `origin`. -/
structure LoopInvariant (origin : GraphStorage) (selection : RatioTipGasSelection)
    (pass : GatherPass) (removed : List (NodeIndex × StorageData)) : Prop where
  holds : Holds pass.storage.executable selection
  removedNodes : RemovedNodes origin pass.storage removed
  result : pass.result = removed.map Prod.snd
  budgeted : Budgeted constraints pass
  ordered : DependenciesFirst origin removed

section Loop

variable {constraints} {origin : GraphStorage}

theorem Budgeted.turn {pass : GatherPass} (budgeted : Budgeted constraints pass)
    (selection : RatioTipGasSelection) :
    Budgeted constraints (RatioTipGasSelection.gatherPass constraints selection.sortedEntries
      { pass with cleanUpList := [], transactionsToRemove := [], transactionsToPromote := [] }) := by
  have fresh : Budgeted constraints
      { pass with cleanUpList := [], transactionsToRemove := [], transactionsToPromote := [] } :=
    ⟨budgeted.gas, budgeted.space, budgeted.count, budgeted.admitted⟩
  exact fresh.gatherPass _

theorem LoopInvariant.next (distinct : origin.IdsDistinct) {selection : RatioTipGasSelection}
    {pass next : GatherPass} {removed passed : List (NodeIndex × StorageData)}
    (invariant : LoopInvariant constraints origin selection pass removed)
    (passInvariant : PassInvariant pass.storage pass.result next passed)
    (budgeted : Budgeted constraints next) :
    LoopInvariant constraints origin
      ((next.cleanUpList.foldl onRemovedTransactionInner
        (next.transactionsToRemove.foldl onRemovedTransactionInner selection)).promote
        next.storage next.transactionsToPromote) next (removed ++ passed) where
  holds := invariant.holds.nextPass (invariant.removedNodes.idsDistinct distinct) passInvariant
  removedNodes := invariant.removedNodes.trans passInvariant.removedNodes
  result := by rw [passInvariant.result, invariant.result, List.map_append]
  budgeted := budgeted
  ordered := invariant.ordered.append (passInvariant.dependencies_removed invariant.removedNodes)

/-- A turn that goes on selected a transaction: a pass that selects nothing also makes
nothing executable. -/
theorem PassInvariant.selects {pass next : GatherPass} {passed : List (NodeIndex × StorageData)}
    (invariant : PassInvariant pass.storage pass.result next passed)
    (continues : ¬(next.cleanUpList.isEmpty ∧ next.transactionsToPromote.isEmpty)) :
    passed ≠ [] := by
  rintro rfl
  have cleaned : next.cleanUpList.isEmpty := by
    rw [invariant.cleanUpList, List.map_nil]
    rfl
  obtain ⟨index, promoted⟩ : ∃ index, index ∈ next.transactionsToPromote := by
    by_contra nothing
    exact continues ⟨cleaned, List.isEmpty_iff.mpr (List.eq_nil_iff_forall_not_mem.mpr
      fun index listed => nothing ⟨index, listed⟩)⟩
  obtain ⟨-, free, depended⟩ := invariant.promoted index promoted
  rw [hasDependencies_iff] at depended
  obtain ⟨source, edge⟩ := depended
  have kept : (source, index) ∈ next.storage.graph.edges := by
    rw [invariant.removedNodes.edges]
    simpa using edge
  rw [← Bool.not_eq_true, hasDependencies_iff] at free
  exact free ⟨source, kept⟩

theorem mem_sortedEntries {selection : RatioTipGasSelection} {key : Key} {index : NodeIndex}
    (found : selection.executableTransactionsSortedTipGasRatio.lookup key = some index) :
    (key, index) ∈ selection.sortedEntries := by
  simp only [sortedEntries, List.mem_mergeSort, List.mem_map]
  exact ⟨⟨key, index⟩, AList.mem_lookup_iff.mp found, rfl⟩

end Loop

/-- What the loop returns, read against the last pass it ran. -/
structure Gathered (origin : GraphStorage)
    (gathered : RatioTipGasSelection × GraphStorage × List StorageData)
    (removed : List (NodeIndex × StorageData)) (last : GatherPass) : Prop where
  holds : Holds gathered.2.1.executable gathered.1
  removedNodes : RemovedNodes origin gathered.2.1 removed
  result : gathered.2.2 = removed.map Prod.snd
  lastResult : last.result = gathered.2.2
  budgeted : Budgeted constraints last
  ordered : DependenciesFirst origin removed
  maximal : ¬Spent last → ∀ index held, gathered.2.1.executable index = some held →
    Skipped constraints last held.1

section Loop

variable {constraints} {origin : GraphStorage}

theorem gatherLoop_gathered (distinct : origin.IdsDistinct) (fuel : ℕ) :
    ∀ (selection : RatioTipGasSelection) (pass : GatherPass)
      (removed : List (NodeIndex × StorageData)),
      LoopInvariant constraints origin selection pass removed →
      pass.storage.graph.nodes.entries.length < fuel →
      ∃ removed' last, Gathered constraints origin (gatherLoop constraints fuel selection pass)
        removed' last := by
  induction fuel with
  | zero => exact fun _ _ _ _ enough => absurd enough (Nat.not_lt_zero _)
  | succ fuel induction =>
      intro selection pass removed invariant enough
      obtain ⟨passed, passInvariant⟩ := passInvariant_gatherPass constraints invariant.holds
      have budgeted := invariant.budgeted.turn selection
      set next := gatherPass constraints selection.sortedEntries
        { pass with cleanUpList := [], transactionsToRemove := [], transactionsToPromote := [] }
      simp only [gatherLoop]
      split_ifs with go idle
      · -- nothing was selected: the map, the graph and the budgets are as they were
        obtain ⟨rfl, noneToRemove⟩ := passInvariant.idle idle.1
        have sameExecutable := passInvariant.removedNodes.executable_of_nil
        have sameResult : next.result = pass.result := by
          rw [passInvariant.result, List.map_nil, List.append_nil]
        have sameGas : next.gasLeft = pass.gasLeft := by
          have before := invariant.budgeted.gas
          have after := budgeted.gas
          rw [sameResult] at after
          omega
        have sameSpace : next.spaceLeft = pass.spaceLeft := by
          have before := invariant.budgeted.space
          have after := budgeted.space
          rw [sameResult] at after
          omega
        refine ⟨removed, next, ⟨?_, ?_, ?_, rfl, budgeted, invariant.ordered, ?_⟩⟩
        · rw [noneToRemove, sameExecutable]
          exact invariant.holds
        · simpa using invariant.removedNodes.trans passInvariant.removedNodes
        · rw [sameResult]
          exact invariant.result
        · -- every executable transaction was in the map, and the idle pass skipped it
          intro _ index held executableNow
          simp only at executableNow
          rw [sameExecutable] at executableNow
          have keyed := (invariant.holds (keyOf held) index).mpr
            ⟨held, executableNow, List.mem_singleton_self _⟩
          obtain ⟨-, pooledNow⟩ := (executable_eq_some _).mp executableNow
          obtain ⟨data, found, identity⟩ := Option.map_eq_some_iff.mp pooledNow
          have going : ¬Spent
              { pass with cleanUpList := [], transactionsToRemove := [], transactionsToPromote := [] } := by
            show ¬(pass.nbLeft = 0 ∨ pass.gasLeft = 0 ∨ pass.spaceLeft = 0)
            omega
          have skipped := skipped_of_gatherPass_idle going sameResult _ (mem_sortedEntries keyed)
            data found
          rw [← identity]
          unfold Skipped at skipped ⊢
          rw [sameGas, sameSpace]
          exact skipped
      · -- a transaction was selected, so fewer nodes are left for the next turn
        have selects := passInvariant.selects idle
        obtain ⟨passedRemoved, -⟩ := invariant.removedNodes.trans passInvariant.removedNodes
        have counted := passInvariant.removedNodes.length_add
        have someRemoved : 0 < passed.length := List.length_pos_iff.mpr selects
        exact induction _ next (removed ++ passed)
          (invariant.next distinct passInvariant budgeted) (by omega)
      · -- the loop's condition fails: a budget is spent, or the map is empty
        refine ⟨removed, pass, ⟨invariant.holds, invariant.removedNodes, invariant.result.symm ▸ rfl,
          rfl, invariant.budgeted, invariant.ordered, ?_⟩⟩
        intro going index held executableNow
        unfold Spent at going
        have keyed := (invariant.holds (keyOf held) index).mpr
          ⟨held, executableNow, List.mem_singleton_self _⟩
        have nonempty : selection.executableTransactionsSortedTipGasRatio.entries ≠ [] := by
          intro empty
          have absent : selection.executableTransactionsSortedTipGasRatio.lookup (keyOf held) = none := by
            rw [AList.lookup_eq_none, AList.mem_keys, AList.keys, empty]
            exact List.not_mem_nil
          rw [absent] at keyed
          cases keyed
        exact absurd ⟨by omega, by omega, by omega, nonempty⟩ go

theorem gatherLoop_fuel (distinct : origin.IdsDistinct) (fuel : ℕ) :
    ∀ (fuel' : ℕ) (selection : RatioTipGasSelection) (pass : GatherPass)
      (removed : List (NodeIndex × StorageData)),
      LoopInvariant constraints origin selection pass removed →
      pass.storage.graph.nodes.entries.length < fuel →
      pass.storage.graph.nodes.entries.length < fuel' →
      gatherLoop constraints fuel selection pass = gatherLoop constraints fuel' selection pass := by
  induction fuel with
  | zero => exact fun _ _ _ _ _ enough => absurd enough (Nat.not_lt_zero _)
  | succ fuel induction =>
      intro fuel' selection pass removed invariant enough enough'
      obtain _ | fuel' := fuel'
      · exact absurd enough' (Nat.not_lt_zero _)
      obtain ⟨passed, passInvariant⟩ := passInvariant_gatherPass constraints invariant.holds
      have budgeted := invariant.budgeted.turn selection
      set next := gatherPass constraints selection.sortedEntries
        { pass with cleanUpList := [], transactionsToRemove := [], transactionsToPromote := [] }
      simp only [gatherLoop]
      split_ifs with go idle
      · rfl
      · -- both go on to the same next turn, with fewer nodes than either fuel
        have selects := passInvariant.selects idle
        have counted := passInvariant.removedNodes.length_add
        have someRemoved : 0 < passed.length := List.length_pos_iff.mpr selects
        exact induction fuel' _ next (removed ++ passed)
          (invariant.next distinct passInvariant budgeted) (by omega) (by omega)
      · rfl

end Loop

/-- What `gather_best_txs` returns, `gathered`, when started on the graph `storage`, with the
selected nodes in the order of selection. -/
structure FitsBlock (storage : GraphStorage)
    (gathered : RatioTipGasSelection × GraphStorage × List StorageData)
    (removed : List (NodeIndex × StorageData)) : Prop where
  result : gathered.2.2 = removed.map Prod.snd
  removedNodes : RemovedNodes storage gathered.2.1 removed
  nodup : gathered.2.2.Nodup
  gas : (gathered.2.2.map (·.transaction.maxGas)).sum ≤ constraints.maxGas
  space : (gathered.2.2.map (·.transaction.meteredBytesSize)).sum ≤ constraints.maximumBlockSize
  count : gathered.2.2.length ≤ constraints.maximumTxs
  admitted : ∀ data ∈ gathered.2.2, constraints.minimalGasPrice ≤ data.transaction.maxGasPrice ∧
    usesExcludedContract constraints data.transaction = false
  ordered : DependenciesFirst storage removed
  holds : Holds gathered.2.1.executable gathered.1
  maximal : (gathered.2.2.map (·.transaction.maxGas)).sum < constraints.maxGas →
    (gathered.2.2.map (·.transaction.meteredBytesSize)).sum < constraints.maximumBlockSize →
    gathered.2.2.length < constraints.maximumTxs →
    ∀ index held, gathered.2.1.executable index = some held →
      usesExcludedContract constraints held.1 = true ∨
        held.1.maxGasPrice < constraints.minimalGasPrice ∨
        constraints.maxGas - (gathered.2.2.map (·.transaction.maxGas)).sum < held.1.maxGas ∨
        constraints.maximumBlockSize - (gathered.2.2.map (·.transaction.meteredBytesSize)).sum <
          held.1.meteredBytesSize

/-- From a map exact for a graph whose nodes hold distinct transactions, `gather_best_txs`
ends within its fuel and returns a block's worth of transactions in dependency order, leaving
an exact map and, with every budget left, nothing it could still have taken. -/
theorem gather_best_txs_fills_block_in_dependency_order (selection : RatioTipGasSelection)
    (storage : GraphStorage) (holds : Holds storage.executable selection)
    (distinct : storage.IdsDistinct) :
    (∀ fuel, storage.graph.nodes.entries.length < fuel →
      gatherLoop constraints fuel selection
          ⟨storage, constraints.maxGas, constraints.maximumBlockSize, constraints.maximumTxs,
            [], [], [], []⟩ =
        selection.gatherBestTxs constraints storage) ∧
      ∃ removed, FitsBlock constraints storage (selection.gatherBestTxs constraints storage) removed := by
  have initial : LoopInvariant constraints storage selection
      ⟨storage, constraints.maxGas, constraints.maximumBlockSize, constraints.maximumTxs,
        [], [], [], []⟩ [] :=
    ⟨holds, RemovedNodes.of_reweighted (Reweighted.refl storage), rfl,
      ⟨Nat.add_zero _, Nat.add_zero _, Nat.add_zero _, fun _ listed => absurd listed List.not_mem_nil⟩,
      fun before entry after split => absurd split (by simp)⟩
  refine ⟨fun fuel enough => gatherLoop_fuel distinct fuel _ selection _ [] initial enough
    (Nat.lt_succ_self _), ?_⟩
  obtain ⟨removed, last, gathered⟩ : ∃ removed last,
      Gathered constraints storage (selection.gatherBestTxs constraints storage) removed last :=
    gatherLoop_gathered distinct _ selection _ [] initial (Nat.lt_succ_self _)
  have gas := gathered.budgeted.gas
  have space := gathered.budgeted.space
  have count := gathered.budgeted.count
  rw [gathered.lastResult] at gas space count
  refine ⟨removed, ⟨gathered.result, gathered.removedNodes, ?_, by omega, by omega, by omega, ?_,
    gathered.ordered, gathered.holds, ?_⟩⟩
  · rw [gathered.result]
    exact gathered.removedNodes.nodup_data distinct
  · intro data listed
    rw [← gathered.lastResult] at listed
    exact (gathered.budgeted.admitted data listed).symm
  · intro gasLeft spaceLeft countLeft index held executable
    have going : ¬Spent last := by
      unfold Spent
      omega
    -- the last pass's budgets are what the selected transactions left of the constraints
    rcases gathered.maximal going index held executable with excluded | arithmetic
    · exact .inl excluded
    · right
      omega

/-- The creator of a contract and its user, in a new pool, gathered into a block. -/
theorem creator_and_user_fill_block :
    let pool := creatorAndUserPool
    let constraints : Constraints := ⟨0, 10, 5, 100, []⟩
    Holds pool.storage.executable pool.selectionAlgorithm ∧ pool.storage.IdsDistinct ∧
      (∀ fuel, pool.storage.graph.nodes.entries.length < fuel →
        gatherLoop constraints fuel pool.selectionAlgorithm
            ⟨pool.storage, constraints.maxGas, constraints.maximumBlockSize,
              constraints.maximumTxs, [], [], [], []⟩ =
          pool.selectionAlgorithm.gatherBestTxs constraints pool.storage) ∧
        ∃ removed, FitsBlock constraints pool.storage
          (pool.selectionAlgorithm.gatherBestTxs constraints pool.storage) removed := by
  intro pool constraints
  have consistent : pool.Consistent := (Pool.consistent_new _ _).runCalls _
  exact ⟨consistent.indexes.selection, consistent.idsDistinct,
    gather_best_txs_fills_block_in_dependency_order _ _ _ consistent.indexes.selection
      consistent.idsDistinct⟩

end RatioTipGasSelection

end FuelCore.TxPool
