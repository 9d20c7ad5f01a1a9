import FuelCore.TxPool.Selection
import FuelCore.TxPool.StorageSpec

/-! # What the selection does

The selection map should hold, each under its own key, exactly the executable nodes of
the graph. Removing a node alone can leave its dependents executable without a key;
they are collected and made executable afterwards. Here: making a node executable keeps
the map exact when no other node holds its transaction id; making a list of collected
nodes executable restores the map; and `gather_best_txs` returns a map exact for the
graph it returns, that graph being the one it was given without the nodes it selected.
-/

namespace FuelCore.TxPool

open AList GraphStorage

namespace RatioTipGasSelection

def keyOf (held : PoolTransaction × ℕ) : Key :=
  ⟨(held.1.tip + 1 : ℚ) / held.1.maxGas, held.2, held.1.id⟩

theorem id_eq_of_keyOf_eq {held held' : PoolTransaction × ℕ} (same : keyOf held = keyOf held') :
    held.1.id = held'.1.id := by
  simp only [keyOf, Key.mk.injEq] at same
  exact same.2.2

/-- The map holds, each under its key, exactly what `owners` gives. -/
def Holds (owners : NodeIndex → Option (PoolTransaction × ℕ)) (selection : RatioTipGasSelection) :
    Prop :=
  IsIndexOf (fun held => [keyOf held]) owners selection.executableTransactionsSortedTipGasRatio

theorem foldl_onRemovedTransactionInner (keys : List Key) (selection : RatioTipGasSelection) :
    (keys.foldl onRemovedTransactionInner selection).executableTransactionsSortedTipGasRatio =
      eraseKeys keys selection.executableTransactionsSortedTipGasRatio := by
  induction keys generalizing selection with
  | nil => rfl
  | cons key keys induction => exact induction _

section Exact

variable {storage : GraphStorage} {owners : NodeIndex → Option (PoolTransaction × ℕ)}
  {selection : RatioTipGasSelection}

theorem Holds.newExecutableTransaction (holds : Holds owners selection)
    (distinct : storage.IdsDistinct)
    (below : ∀ index held, owners index = some held → storage.pooled index = some held)
    {storageId : NodeIndex} {storeEntry : StorageData} (found : storage.get storageId = some storeEntry)
    (stale : ∀ old, owners storageId = some old → old = storeEntry.identity) :
    Holds (Function.update owners storageId (some storeEntry.identity))
      (selection.newExecutableTransaction storageId storeEntry) := by
  have pooledEntry : storage.pooled storageId = some storeEntry.identity := by
    simp [pooled, found]
  apply IsIndexOf.insert holds
  · intro old ownerFound key held
    rw [← stale old ownerFound]
    exact held
  · intro key keyed holder indexed
    obtain ⟨held, holderFound, holderKeyed⟩ := (holds key holder).mp indexed
    rw [List.mem_singleton] at keyed holderKeyed
    have sameId := id_eq_of_keyOf_eq (holderKeyed.symm.trans keyed)
    exact distinct holder storageId held storeEntry.identity (below holder held holderFound)
      pooledEntry sameId

theorem Holds.promote (distinct : storage.IdsDistinct) :
    ∀ {transactionsToPromote : List NodeIndex} {owners : NodeIndex → Option (PoolTransaction × ℕ)}
      {selection : RatioTipGasSelection}, Holds owners selection →
      (∀ index held, owners index = some held → storage.pooled index = some held) →
      (∀ index ∉ transactionsToPromote, owners index = storage.executable index) →
      (∀ index ∈ transactionsToPromote, owners index = none ∨
        owners index = storage.executable index) →
      (∀ index ∈ transactionsToPromote, index ∈ storage.graph.nodes →
        storage.hasDependencies index = false) →
      Holds storage.executable (selection.promote storage transactionsToPromote) := by
  intro transactionsToPromote
  induction transactionsToPromote with
  | nil =>
      intro owners selection holds _ outside _ _
      have same : owners = storage.executable := funext fun index => outside index (by simp)
      rw [← same]
      exact holds
  | cons first rest induction =>
      intro owners selection holds below outside inside ready
      simp only [RatioTipGasSelection.promote, List.foldl_cons]
      have firstInside := inside first (List.mem_cons_self ..)
      split
      case h_1 storeEntry found =>
        have present : first ∈ storage.graph.nodes := by
          rw [← isSome_pooled]
          simp [pooled, found]
        have executableFirst : storage.executable first = some storeEntry.identity := by
          rw [executable_eq_some]
          exact ⟨ready first (List.mem_cons_self ..) present, by simp [pooled, found]⟩
        have stale : ∀ old, owners first = some old → old = storeEntry.identity := by
          intro old ownerFound
          rcases firstInside with absent | agrees
          · rw [absent] at ownerFound
            cases ownerFound
          · rw [agrees, executableFirst, Option.some.injEq] at ownerFound
            exact ownerFound.symm
        refine induction (holds.newExecutableTransaction distinct below found stale) ?_ ?_ ?_ ?_
        · intro index held ownerFound
          by_cases same : index = first
          · subst same
            simp only [Function.update_self, Option.some.injEq] at ownerFound
            rw [← ownerFound]
            simp [pooled, found]
          · rw [Function.update_of_ne same] at ownerFound
            exact below index held ownerFound
        · intro index later
          by_cases same : index = first
          · subst same
            rw [Function.update_self, executableFirst]
          · rw [Function.update_of_ne same]
            exact outside index (by simp [same, later])
        · intro index later
          by_cases same : index = first
          · subst same
            rw [Function.update_self, executableFirst]
            exact .inr rfl
          · rw [Function.update_of_ne same]
            exact inside index (List.mem_cons_of_mem _ later)
        · exact fun index later => ready index (List.mem_cons_of_mem _ later)
      case h_2 absent =>
        have notExecutable : storage.executable first = none := by
          simp [executable, pooled, absent]
        refine induction holds below ?_ ?_ ?_
        · intro index later
          by_cases same : index = first
          · subst same
            rcases firstInside with none | agrees
            · rw [none, notExecutable]
            · exact agrees
          · exact outside index (by simp [same, later])
        · exact fun index later => inside index (List.mem_cons_of_mem _ later)
        · exact fun index later => ready index (List.mem_cons_of_mem _ later)

end Exact

/-! ## Gathering the best transactions -/

/-- The state of a pass started from the graph `start` with the selected transactions
`before`: the nodes selected so far are gone, each was executable at the start and left
its key to clean up, and the nodes that became executable meanwhile are collected. -/
structure PassInvariant (start : GraphStorage) (before : List StorageData) (pass : GatherPass)
    (removed : List (NodeIndex × StorageData)) : Prop where
  removedNodes : RemovedNodes start pass.storage removed
  result : pass.result = before ++ removed.map Prod.snd
  cleanUpList : pass.cleanUpList = removed.map fun entry => keyOf entry.2.identity
  executable : ∀ entry ∈ removed, start.executable entry.1 = some entry.2.identity
  transactionsToRemove : ∀ key ∈ pass.transactionsToRemove, key ∈ pass.cleanUpList
  promoted : ∀ index ∈ pass.transactionsToPromote, index ∈ pass.storage.graph.nodes ∧
    pass.storage.hasDependencies index = false ∧ start.hasDependencies index = true
  allPromoted : ∀ index ∈ pass.storage.graph.nodes, pass.storage.hasDependencies index = false →
    start.hasDependencies index = true → index ∈ pass.transactionsToPromote

section Gather

variable (constraints : Constraints) {start : GraphStorage} {selection : RatioTipGasSelection}

theorem PassInvariant.select {before : List StorageData} {pass : GatherPass}
    {removed : List (NodeIndex × StorageData)} (invariant : PassInvariant start before pass removed)
    {key : Key} {storageId : NodeIndex} {storeEntry : StorageData} {storage : GraphStorage}
    (executable : start.executable storageId = some storeEntry.identity)
    (keyed : key = keyOf storeEntry.identity)
    (found : pass.storage.get storageId = some storeEntry)
    (taken : RemovedNodes pass.storage storage [(storageId, storeEntry)]) (gasLeft spaceLeft nbLeft : ℕ) :
    PassInvariant start before
      { pass with
        storage
        gasLeft
        spaceLeft
        nbLeft
        result := pass.result ++ [storeEntry]
        cleanUpList := pass.cleanUpList ++ [key]
        transactionsToPromote := pass.transactionsToPromote ++
          (pass.storage.getDirectDependents storageId).filter fun dependent =>
            !storage.hasDependencies dependent }
      (removed ++ [(storageId, storeEntry)]) := by
  have startFree : start.hasDependencies storageId = false := ((executable_eq_some _).mp executable).1
  -- no edge enters the selected node, so its dependents are other nodes
  have otherDependent : ∀ dependent, (storageId, dependent) ∈ pass.storage.graph.edges →
      dependent ≠ storageId := by
    rintro dependent edge rfl
    have depends : start.hasDependencies dependent = true :=
      (hasDependencies_iff _).mpr ⟨_, invariant.removedNodes.edge_of_edge edge⟩
    rw [startFree] at depends
    cases depends
  have stays : ∀ index, index ≠ storageId → index ∈ pass.storage.graph.nodes →
      index ∈ storage.graph.nodes := by
    intro index different present
    rw [← isSome_pooled, taken.pooled, if_neg (by simpa using different), isSome_pooled]
    exact present
  refine ⟨invariant.removedNodes.trans taken, ?_, ?_, ?_, ?_, ?_, ?_⟩
  · simp [invariant.result]
  · simp [invariant.cleanUpList, keyed]
  · intro entry listed
    rcases List.mem_append.mp listed with early | now
    · exact invariant.executable entry early
    · rw [List.mem_singleton] at now
      subst now
      exact executable
  · intro key' listed
    exact List.mem_append_left _ (invariant.transactionsToRemove key' listed)
  · intro index listed
    rcases List.mem_append.mp listed with early | now
    · obtain ⟨present, free, depended⟩ := invariant.promoted index early
      have different : index ≠ storageId := by
        rintro rfl
        rw [startFree] at depended
        cases depended
      exact ⟨stays index different present, taken.hasDependencies_false free, depended⟩
    · rw [List.mem_filter, getDirectDependents, StableGraph.mem_neighborsDirected_outgoing,
        Bool.not_eq_true'] at now
      obtain ⟨edge, free⟩ := now
      refine ⟨stays index (otherDependent index edge)
        (pass.storage.graph.edges_mem _ edge).2, free, ?_⟩
      exact (hasDependencies_iff _).mpr ⟨_, invariant.removedNodes.edge_of_edge edge⟩
  · intro index present free depended
    simp only at present free ⊢
    have presentBefore : index ∈ pass.storage.graph.nodes := by
      rw [← isSome_pooled] at present ⊢
      rw [taken.pooled] at present
      split_ifs at present
      · simp at present
      · exact present
    cases freeBefore : pass.storage.hasDependencies index with
    | false =>
        exact List.mem_append_left _ (invariant.allPromoted index presentBefore freeBefore depended)
    | true =>
        obtain ⟨source, edge⟩ := (hasDependencies_iff _).mp freeBefore
        have fromSelected : source = storageId := by
          by_contra different
          have kept : (source, index) ∈ storage.graph.edges := by
            rw [taken.edges]
            refine ⟨edge, by simpa using different, ?_⟩
            intro gone
            rw [List.map_singleton, List.mem_singleton] at gone
            simp only at gone
            subst gone
            exact taken.absent (by simp) present
          rw [Bool.eq_false_iff] at free
          exact free ((hasDependencies_iff _).mpr ⟨source, kept⟩)
        subst fromSelected
        refine List.mem_append_right _ (List.mem_filter.mpr ⟨?_, by simp [free]⟩)
        rw [getDirectDependents, StableGraph.mem_neighborsDirected_outgoing]
        exact edge

theorem gatherPass_invariant (holds : Holds start.executable selection) :
    ∀ {entries : List (Key × NodeIndex)} {before : List StorageData} {pass : GatherPass}
      {removed : List (NodeIndex × StorageData)},
      (∀ entry ∈ entries, selection.executableTransactionsSortedTipGasRatio.lookup entry.1 =
        some entry.2) →
      PassInvariant start before pass removed →
      ∃ removed', PassInvariant start before (gatherPass constraints entries pass) removed' := by
  intro entries
  induction entries with
  | nil =>
      intro before pass removed _ invariant
      exact ⟨removed, invariant⟩
  | cons entry entries induction =>
      intro before pass removed listed invariant
      obtain ⟨key, storageId⟩ := entry
      have later : ∀ entry ∈ entries,
          selection.executableTransactionsSortedTipGasRatio.lookup entry.1 = some entry.2 :=
        fun entry member => listed entry (List.mem_cons_of_mem _ member)
      -- the entry's node was executable at the start, under this key
      obtain ⟨held, executable, keyed⟩ := (holds key storageId).mp (listed _ (List.mem_cons_self ..))
      rw [List.mem_singleton] at keyed
      simp only [gatherPass]
      split_ifs
      · exact ⟨removed, invariant⟩
      · split
        case h_1 absent =>
          -- the node was selected earlier in the pass: its key is already to clean up
          refine induction later ⟨invariant.removedNodes, invariant.result,
            invariant.cleanUpList, invariant.executable, ?_, invariant.promoted,
            invariant.allPromoted⟩
          intro key' member
          rcases List.mem_append.mp member with early | now
          · exact invariant.transactionsToRemove key' early
          · rw [List.mem_singleton] at now
            subst now
            have wasPresent : storageId ∈ start.graph.nodes := by
              rw [← isSome_pooled, ((executable_eq_some _).mp executable).2]
              rfl
            have gone : storageId ∉ pass.storage.graph.nodes := by
              rw [← pooled_eq_none]
              simp [pooled, absent]
            obtain ⟨removedEntry, member, same⟩ :=
              List.mem_map.mp (invariant.removedNodes.mem_of_absent wasPresent gone)
            have removedExecutable := invariant.executable removedEntry member
            rw [same, executable, Option.some.injEq] at removedExecutable
            rw [invariant.cleanUpList, keyed, removedExecutable]
            exact List.mem_map_of_mem member
        case h_2 storeEntry found =>
          have stillHeld : held = storeEntry.identity := by
            have present : storageId ∉ removed.map Prod.fst := by
              intro gone
              have absent := invariant.removedNodes.absent gone
              rw [← pooled_eq_none] at absent
              simp [pooled, found] at absent
            have pooledNow := invariant.removedNodes.pooled storageId
            rw [if_neg present, ((executable_eq_some _).mp executable).2] at pooledNow
            simp only [pooled, found, Option.map_some, Option.some.injEq] at pooledNow
            exact pooledNow.symm
          subst stillHeld
          split_ifs
          · exact induction later invariant
          · exact induction later invariant
          · exact induction later invariant
          · split
            case h_1 => exact induction later invariant
            case h_2 storage removedEntry taken =>
              obtain ⟨removedSome, removal⟩ := pass.storage.removeTransaction_of_present found
              rw [taken] at removedSome removal
              cases removedSome
              exact induction later (invariant.select executable keyed found removal _ _ _)

theorem passInvariant_gatherPass {pass : GatherPass} (holds : Holds pass.storage.executable selection) :
    ∃ passed, PassInvariant pass.storage pass.result
      (gatherPass constraints selection.sortedEntries
        { pass with cleanUpList := [], transactionsToRemove := [], transactionsToPromote := [] })
      passed := by
  have entriesListed : ∀ entry ∈ selection.sortedEntries,
      selection.executableTransactionsSortedTipGasRatio.lookup entry.1 = some entry.2 := by
    intro entry listed
    simp only [sortedEntries, List.mem_mergeSort, List.mem_map] at listed
    obtain ⟨sigma, member, rfl⟩ := listed
    exact AList.mem_lookup_iff.mpr member
  have initial : PassInvariant pass.storage pass.result
      { pass with cleanUpList := [], transactionsToRemove := [], transactionsToPromote := [] }
      [] := by
    refine ⟨RemovedNodes.of_reweighted (Reweighted.refl _), by simp, rfl, by simp, by simp,
      by simp, ?_⟩
    intro index _ free depended
    simp only at free
    rw [free] at depended
    cases depended
  exact gatherPass_invariant constraints holds entriesListed initial

theorem PassInvariant.idle {before : List StorageData} {pass : GatherPass}
    {removed : List (NodeIndex × StorageData)} (invariant : PassInvariant start before pass removed)
    (idle : pass.cleanUpList.isEmpty) : removed = [] ∧ pass.transactionsToRemove = [] := by
  have nonePassed : removed = [] := by
    rw [List.isEmpty_iff, invariant.cleanUpList, List.map_eq_nil_iff] at idle
    exact idle
  refine ⟨nonePassed, List.eq_nil_iff_forall_not_mem.mpr fun key listed => ?_⟩
  have cleaned := invariant.transactionsToRemove key listed
  rw [invariant.cleanUpList, nonePassed] at cleaned
  cases cleaned

/-- After a pass, taking the selected keys out of the map and making the collected nodes
executable gives a map exact for the graph the pass leaves. -/
theorem Holds.nextPass {pass next : GatherPass} {passed : List (NodeIndex × StorageData)}
    (holds : Holds pass.storage.executable selection) (distinct : pass.storage.IdsDistinct)
    (invariant : PassInvariant pass.storage pass.result next passed) :
    Holds next.storage.executable
      ((next.cleanUpList.foldl onRemovedTransactionInner
        (next.transactionsToRemove.foldl onRemovedTransactionInner selection)).promote
        next.storage next.transactionsToPromote) := by
  have covers : ∀ entry ∈ passed.map (fun entry => (entry.1, entry.2.identity)),
      ∀ held, pass.storage.executable entry.1 = some held →
        ∀ key ∈ [keyOf held], key ∈ [keyOf entry.2] := by
    intro entry listed held found key keyed
    obtain ⟨removedEntry, member, rfl⟩ := List.mem_map.mp listed
    rw [invariant.executable removedEntry member, Option.some.injEq] at found
    rw [← found] at keyed
    exact keyed
  have unique : ∀ entry ∈ passed.map (fun entry => (entry.1, entry.2.identity)),
      ∀ key ∈ [keyOf entry.2], ∀ holder held, pass.storage.executable holder = some held →
        key ∈ [keyOf held] → holder = entry.1 := by
    intro entry listed key keyed holder held found holderKeyed
    obtain ⟨removedEntry, member, rfl⟩ := List.mem_map.mp listed
    rw [List.mem_singleton] at keyed holderKeyed
    have sameId := id_eq_of_keyOf_eq (holderKeyed.symm.trans keyed)
    have removedFound := invariant.executable removedEntry member
    exact distinct holder removedEntry.1 held _
      ((executable_eq_some _).mp found).2 ((executable_eq_some _).mp removedFound).2 sameId
  have erased := IsIndexOf.eraseOwners holds _ covers unique
  simp only [List.map_map, List.flatMap_map] at erased
  have cleaned : Holds (fun index => if index ∈ passed.map Prod.fst then none
        else pass.storage.executable index)
      (next.cleanUpList.foldl onRemovedTransactionInner
        (next.transactionsToRemove.foldl onRemovedTransactionInner selection)) := by
    apply erased.lookup_congr
    intro key
    rw [foldl_onRemovedTransactionInner, foldl_onRemovedTransactionInner,
      lookup_eraseKeys, lookup_eraseKeys, lookup_eraseKeys, invariant.cleanUpList]
    have sameKeys : ∀ key, key ∈ passed.map (fun entry => keyOf entry.2.identity) ↔
        key ∈ passed.flatMap fun entry => [keyOf entry.2.identity] := by
      intro key
      simp [eq_comm]
    by_cases listed : key ∈ next.transactionsToRemove
    · have toClean := invariant.transactionsToRemove key listed
      rw [invariant.cleanUpList] at toClean
      rw [if_pos toClean, if_pos ((sameKeys key).mp toClean)]
    · rw [if_neg listed]
      simp only [sameKeys]
  apply cleaned.promote (invariant.removedNodes.idsDistinct distinct)
  · intro index held found
    split_ifs at found with gone
    rw [invariant.removedNodes.pooled, if_neg gone]
    exact ((executable_eq_some _).mp found).2
  · intro index unpromoted
    split_ifs with gone
    · have absent := invariant.removedNodes.absent gone
      rw [← pooled_eq_none] at absent
      simp [executable, absent]
    · cases free : pass.storage.hasDependencies index with
      | false =>
          have freeNext := invariant.removedNodes.hasDependencies_false free
          simp [executable, free, freeNext, invariant.removedNodes.pooled, gone]
      | true =>
          have notExecutable : pass.storage.executable index = none := by
            simp [executable, free]
          rw [notExecutable, eq_comm]
          cases freeNext : next.storage.hasDependencies index with
          | true => simp [executable, freeNext]
          | false =>
              by_cases present : index ∈ next.storage.graph.nodes
              · exact absurd (invariant.allPromoted index present freeNext free) unpromoted
              · rw [← pooled_eq_none] at present
                simp [executable, present]
  · intro index promoted
    left
    obtain ⟨_, _, depended⟩ := invariant.promoted index promoted
    split_ifs
    · rfl
    · simp [executable, depended]
  · intro index promoted _
    exact (invariant.promoted index promoted).2.1

theorem gatherLoop_exact {origin : GraphStorage} (distinct : origin.IdsDistinct) (fuel : ℕ) :
    ∀ (selection : RatioTipGasSelection) (pass : GatherPass)
      (removed : List (NodeIndex × StorageData)),
      Holds pass.storage.executable selection → RemovedNodes origin pass.storage removed →
      pass.result = removed.map Prod.snd →
      ∃ removed', Holds (gatherLoop constraints fuel selection pass).2.1.executable
          (gatherLoop constraints fuel selection pass).1 ∧
        RemovedNodes origin (gatherLoop constraints fuel selection pass).2.1 removed' ∧
        (gatherLoop constraints fuel selection pass).2.2 = removed'.map Prod.snd := by
  induction fuel with
  | zero =>
      intro selection pass removed holds removal results
      exact ⟨removed, holds, removal, results⟩
  | succ fuel induction =>
      intro selection pass removed holds removal results
      obtain ⟨passed, invariant⟩ := passInvariant_gatherPass constraints holds
      set next := gatherPass constraints selection.sortedEntries
        { pass with cleanUpList := [], transactionsToRemove := [], transactionsToPromote := [] }
      have removalNext := removal.trans invariant.removedNodes
      have resultsNext : next.result = (removed ++ passed).map Prod.snd := by
        rw [invariant.result, results, List.map_append]
      simp only [gatherLoop]
      split_ifs with go idle
      · -- nothing was selected: the map and the graph are as they were
        obtain ⟨rfl, noneToRemove⟩ := invariant.idle idle.1
        refine ⟨removed ++ [], ?_, removalNext, resultsNext⟩
        rw [noneToRemove, invariant.removedNodes.executable_of_nil]
        exact holds
      · -- the selected keys go, then the collected nodes come in
        apply induction _ next (removed ++ passed) _ removalNext resultsNext
        exact holds.nextPass (removal.idsDistinct distinct) invariant
      · exact ⟨removed, holds, removal, results⟩

theorem gatherBestTxs_exact {storage : GraphStorage} (holds : Holds storage.executable selection)
    (distinct : storage.IdsDistinct) :
    ∃ removed, Holds (selection.gatherBestTxs constraints storage).2.1.executable
        (selection.gatherBestTxs constraints storage).1 ∧
      RemovedNodes storage (selection.gatherBestTxs constraints storage).2.1 removed ∧
      (selection.gatherBestTxs constraints storage).2.2 = removed.map Prod.snd :=
  gatherLoop_exact constraints distinct _ selection _ [] holds
    (RemovedNodes.of_reweighted (Reweighted.refl storage)) rfl

end Gather

end RatioTipGasSelection

end FuelCore.TxPool
