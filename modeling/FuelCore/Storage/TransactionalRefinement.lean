import FuelCore.Storage.Transactional

/-! # An in-memory transaction is a flat store

A transaction over a store that reads as the flat store `m` reads as `m` with its
pending operations laid over it (`KvMap.overlay`). Every write only changes the
pending operations, in the way the same write changes the flat store, so a
transaction refines the flat store through any sequence of writes; and committing
it into a parent transaction with `ConflictPolicy::Overwrite` lays its operations
over the parent's, which leaves the parent showing what the child showed.
-/

namespace FuelCore.Storage

open KeyValueInspect KeyValueMutate BatchOperations

/-- The flat store a transaction holding `changes` shows over a store that reads as `m`. -/
def KvMap.overlay (m : KvMap) (changes : Changes) : KvMap where
  lookup column key :=
    match getFromChanges changes key column with
    | some operation => operation.value
    | none => m.lookup column key

theorem KvMap.lookup_overlay (m : KvMap) (changes : Changes) (column : Nat) (key : Bytes) :
    (m.overlay changes).lookup column key =
      match getFromChanges changes key column with
      | some operation => operation.value
      | none => m.lookup column key := rfl

@[simp] theorem getFromChanges_empty (key : Bytes) (column : Nat) :
    getFromChanges ∅ key column = none := rfl

@[simp] theorem KvMap.overlay_empty (m : KvMap) : m.overlay ∅ = m := rfl

namespace InMemoryTransaction

variable {S : Type}

/-! ## Reads -/

section Reads

variable [KeyValueInspect S]

variable (tx : InMemoryTransaction S) (key : Bytes) (column : Nat)

theorem get_of_pending {operation : WriteOperation}
    (pending : getFromChanges tx.changes key column = some operation) :
    get tx key column = .ok operation.value := by
  cases operation <;>
    simp [KeyValueInspect.get, pending, WriteOperation.value]

theorem get_of_missing (missing : getFromChanges tx.changes key column = none) :
    get tx key column = get tx.storage key column := by
  simp [KeyValueInspect.get, missing]

/-- Every read of a transaction over a store that reads as `m` is the default read
over `m` with the pending operations laid over it. -/
theorem readsAs_overlay {m : KvMap} (reads : ReadsAs tx.storage m) :
    ReadsAs tx (m.overlay tx.changes) := by
  constructor
  · intro key column
    rw [KvMap.get_eq, KvMap.lookup_overlay]
    cases pending : getFromChanges tx.changes key column with
    | none => rw [get_of_missing tx key column pending, reads.get, KvMap.get_eq]
    | some operation => exact get_of_pending tx key column pending
  · intro key column
    rw [KvMap.sizeOfValue_eq, KvMap.lookup_overlay]
    cases pending : getFromChanges tx.changes key column with
    | none => simp [KeyValueInspect.sizeOfValue, pending, reads.sizeOfValue, Except.map]
    | some operation =>
        cases operation <;> simp [KeyValueInspect.sizeOfValue, pending, WriteOperation.value]
  · intro key column
    rw [KvMap.exists_eq, KvMap.lookup_overlay]
    cases pending : getFromChanges tx.changes key column with
    | none => simp [KeyValueInspect.exists, pending, reads.exists, Except.map]
    | some operation =>
        cases operation <;> simp [KeyValueInspect.exists, pending, WriteOperation.value]
  · intro key column offset buf
    rw [KvMap.readExact_eq, KvMap.lookup_overlay]
    cases pending : getFromChanges tx.changes key column with
    | none => simp [KeyValueInspect.readExact, pending, reads.readExact]
    | some operation =>
        cases operation <;> simp [KeyValueInspect.readExact, pending, WriteOperation.value, readFound]
  · intro key column offset buf
    rw [KvMap.readZerofill_eq, KvMap.lookup_overlay]
    cases pending : getFromChanges tx.changes key column with
    | none => simp [KeyValueInspect.readZerofill, pending, reads.readZerofill]
    | some operation =>
        cases operation <;>
          simp [KeyValueInspect.readZerofill, pending, WriteOperation.value, readFound]

end Reads

/-! ## Writes -/

theorem lookup_getD_lookup (changes : Changes) (key : Bytes) (column : Nat) :
    ((changes.lookup column).getD ∅).lookup key = getFromChanges changes key column := by
  cases existing : changes.lookup column <;> simp [getFromChanges, existing]

theorem getFromChanges_modifyD (changes : Changes) (column : Nat)
    (update : ColumnChanges → ColumnChanges) (key' : Bytes) (column' : Nat) :
    getFromChanges (changes.modifyD column ∅ update) key' column' =
      if column' = column then (update ((changes.lookup column).getD ∅)).lookup key'
      else getFromChanges changes key' column' := by
  by_cases sameColumn : column' = column
  · subst sameColumn
    simp [getFromChanges]
  · simp [getFromChanges, sameColumn]

section Writes

variable (tx : InMemoryTransaction S) (m : KvMap)

theorem getFromChanges_setOperation (key : Bytes) (column : Nat) (operation : WriteOperation)
    (key' : Bytes) (column' : Nat) :
    getFromChanges (tx.setOperation key column operation).changes key' column' =
      if column' = column ∧ key' = key then some operation
      else getFromChanges tx.changes key' column' := by
  rw [setOperation, getFromChanges_modifyD]
  by_cases sameColumn : column' = column
  · subst sameColumn
    by_cases sameKey : key' = key
    · subst sameKey
      simp [AList.lookup_insert]
    · simp [AList.lookup_insert_ne sameKey, sameKey, lookup_getD_lookup]
  · simp [sameColumn]

theorem overlay_setOperation (key : Bytes) (column : Nat) (operation : WriteOperation) :
    m.overlay (tx.setOperation key column operation).changes =
      (m.overlay tx.changes).set column key operation.value := by
  apply KvMap.ext
  funext column' key'
  rw [KvMap.lookup_overlay, getFromChanges_setOperation, KvMap.lookup_set, KvMap.lookup_overlay]
  split_ifs <;> rfl

@[simp] theorem swapOperation_fst [KeyValueInspect S] (key : Bytes) (column : Nat) (operation : WriteOperation) :
    (tx.swapOperation key column operation).1 = tx.setOperation key column operation := by
  unfold swapOperation
  split <;> rfl

theorem swapOperation_snd [KeyValueInspect S] (key : Bytes) (column : Nat) (operation : WriteOperation) :
    (tx.swapOperation key column operation).2 = get tx key column := by
  unfold swapOperation
  cases pending : getFromChanges tx.changes key column with
  | none => rw [get_of_missing tx key column pending]
  | some old => rw [get_of_pending tx key column pending]

theorem insertBatch_cons (column : Nat) (entry : Bytes × WriteOperation)
    (entries : List (Bytes × WriteOperation)) :
    tx.insertBatch column (entry :: entries) =
      (tx.setOperation entry.1 column entry.2).insertBatch column entries := by
  simp [insertBatch, setOperation, AList.modifyD, AList.lookup_insert, AList.insert_insert]

theorem overlay_insertBatch (column : Nat) (entries : List (Bytes × WriteOperation)) :
    m.overlay (tx.insertBatch column entries).changes =
      entries.foldl (fun m entry => m.set column entry.1 entry.2.value) (m.overlay tx.changes) := by
  induction entries generalizing tx with
  | nil =>
      -- An empty batch still creates the column's entry, which holds no key.
      apply KvMap.ext
      funext column' key'
      rw [insertBatch, KvMap.lookup_overlay, getFromChanges_modifyD]
      split_ifs with sameColumn
      · subst sameColumn
        simp only [List.foldl_nil]
        rw [lookup_getD_lookup, KvMap.lookup_overlay]
      · rfl
  | cons entry entries induction =>
      rw [insertBatch_cons, induction, overlay_setOperation, List.foldl_cons]

end Writes

/-! ## Runs of writes -/

section Runs

variable [KeyValueInspect S] (tx : InMemoryTransaction S) (m : KvMap)

/-- One call on a transaction over a store that reads as `m` leaves the storage
alone, changes the shown flat store as the call changes a flat store, and replies
as the call on the flat store replies. -/
theorem run_overlay (reads : ReadsAs tx.storage m) (operation : Operation) :
    (operation.run tx).1.storage = tx.storage ∧
      m.overlay (operation.run tx).1.changes = (operation.run (m.overlay tx.changes)).1 ∧
      (operation.run tx).2 = (operation.run (m.overlay tx.changes)).2 := by
  have visible := readsAs_overlay tx reads
  cases operation with
  | put key column value =>
      exact ⟨rfl, overlay_setOperation tx m key column _, rfl⟩
  | write key column buf =>
      exact ⟨rfl, overlay_setOperation tx m key column _, rfl⟩
  | replace key column value =>
      refine ⟨by simp [Operation.run, setOperation], ?_, ?_⟩
      · simpa [Operation.run, WriteOperation.value] using
          overlay_setOperation tx m key column (.insert value)
      · simp [Operation.run, swapOperation_snd, visible.get]
  | take key column =>
      refine ⟨by simp [Operation.run, setOperation], ?_, ?_⟩
      · simpa [Operation.run, WriteOperation.value] using
          overlay_setOperation tx m key column .remove
      · simp [Operation.run, swapOperation_snd, visible.get]
  | delete key column =>
      exact ⟨rfl, overlay_setOperation tx m key column _, rfl⟩
  | batchWrite column entries =>
      exact ⟨rfl, overlay_insertBatch tx m column entries, rfl⟩

theorem runOperations_overlay (reads : ReadsAs tx.storage m) (operations : List Operation) :
    (runOperations tx operations).1.storage = tx.storage ∧
      m.overlay (runOperations tx operations).1.changes =
        (runOperations (m.overlay tx.changes) operations).1 ∧
      (runOperations tx operations).2 = (runOperations (m.overlay tx.changes) operations).2 := by
  induction operations generalizing tx with
  | nil => exact ⟨rfl, rfl, rfl⟩
  | cons operation operations induction =>
      rcases run_overlay tx m reads operation with ⟨sameStorage, sameView, sameReply⟩
      have nextReads : ReadsAs (operation.run tx).1.storage m := sameStorage ▸ reads
      rcases induction (operation.run tx).1 nextReads with ⟨restStorage, restView, restReplies⟩
      refine ⟨restStorage.trans sameStorage, ?_, ?_⟩
      · rw [runOperations_cons, restView, sameView, runOperations_cons]
      · rw [runOperations_cons, restReplies, sameView, sameReply, runOperations_cons]

end Runs

/-! ## Commit -/

theorem mergeColumn_overwrite (btree : ColumnChanges) (entries : List (Σ _ : Bytes, WriteOperation)) :
    mergeColumn .overwrite btree entries = (AList.insertEach entries btree, .ok ()) := by
  induction entries generalizing btree with
  | nil => rfl
  | cons entry entries induction =>
      rcases entry with ⟨key, operation⟩
      rw [mergeColumn, induction, AList.insertEach_cons]

theorem mergeChanges_overwrite (changes : Changes) {entries : List (Σ _ : Nat, ColumnChanges)}
    (distinct : entries.NodupKeys) :
    (mergeChanges .overwrite changes entries).2 = .ok () ∧
      ∀ key column, getFromChanges (mergeChanges .overwrite changes entries).1 key column =
        ((entries.dlookup column).bind fun btree => btree.lookup key).or
          (getFromChanges changes key column) := by
  induction entries generalizing changes with
  | nil => simp [mergeChanges]
  | cons entry entries induction =>
      rcases entry with ⟨column, value⟩
      rcases List.nodupKeys_cons.mp distinct with ⟨fresh, restDistinct⟩
      have absent : entries.dlookup column = none := List.dlookup_eq_none.mpr fresh
      cases existing : changes.lookup column with
      | none =>
          rcases induction (changes.insert column value) restDistinct with ⟨succeeds, merged⟩
          refine ⟨by simpa [mergeChanges, existing] using succeeds, fun key column' => ?_⟩
          simp only [mergeChanges, existing, merged]
          by_cases sameColumn : column' = column
          · subst sameColumn
            simp [getFromChanges, absent, existing, AList.lookup_insert, List.dlookup_cons_eq]
          · simp [getFromChanges, AList.lookup_insert_ne sameColumn,
              List.dlookup_cons_ne entries ⟨column, value⟩ sameColumn]
      | some btree =>
          rcases induction (changes.insert column (AList.insertEach value.entries btree))
            restDistinct with ⟨succeeds, merged⟩
          refine ⟨by simpa [mergeChanges, existing, mergeColumn_overwrite] using succeeds,
            fun key column' => ?_⟩
          simp only [mergeChanges, existing, mergeColumn_overwrite, merged]
          by_cases sameColumn : column' = column
          · subst sameColumn
            rw [absent, List.dlookup_cons_eq]
            rw [getFromChanges, AList.lookup_insert, getFromChanges, existing]
            simp only [Option.bind_none, Option.none_or, Option.bind_some]
            exact AList.lookup_insertEach value.nodupKeys btree key
          · simp [getFromChanges, AList.lookup_insert_ne sameColumn,
              List.dlookup_cons_ne entries ⟨column, value⟩ sameColumn]

theorem overlay_of_child_first {merged parent child : Changes}
    (childFirst : ∀ key column, getFromChanges merged key column =
      (getFromChanges child key column).or (getFromChanges parent key column)) (m : KvMap) :
    m.overlay merged = (m.overlay parent).overlay child := by
  apply KvMap.ext
  funext column key
  rw [KvMap.lookup_overlay, childFirst, KvMap.lookup_overlay, KvMap.lookup_overlay]
  cases getFromChanges child key column <;> rfl

theorem commitChanges_overwrite (parent : InMemoryTransaction S)
    (overwrites : parent.policy = .overwrite) (changes : Changes) (m : KvMap) :
    (Modifiable.commitChanges parent changes).2 = .ok () ∧
      (Modifiable.commitChanges parent changes).1.storage = parent.storage ∧
      m.overlay (Modifiable.commitChanges parent changes).1.changes =
        (m.overlay parent.changes).overlay changes := by
  rcases parent with ⟨parentChanges, policy, storage⟩
  subst overwrites
  rcases mergeChanges_overwrite parentChanges changes.nodupKeys with ⟨succeeds, merged⟩
  exact ⟨succeeds, rfl, overlay_of_child_first merged m⟩

/-! ## A conflict under `Fail` -/

/-- Pending changes that write key `[2]` of column 0. -/
def pendingKeyTwo : Changes :=
  (∅ : Changes).insert 0 ((∅ : ColumnChanges).insert [2] (.insert [0]))

/-- Changes to keys `[1]` and `[2]` of column 0, listed in the order the `BTreeMap` walks
them. -/
def keysOneAndTwo : Changes :=
  (∅ : Changes).insert 0 (((∅ : ColumnChanges).insert [2] (.insert [2])).insert [1] (.insert [1]))

/-- The conflict on `[2]` is reported after `[1]` was merged, and the error leaves it in
the pending changes. -/
theorem failed_commit_keeps_changes_merged_before_conflict :
    let tx : InMemoryTransaction Unit := transaction () .fail pendingKeyTwo
    (Modifiable.commitChanges tx keysOneAndTwo).2 = .error (.conflictingOperation (.insert [2]) [2]) ∧
      getFromChanges (Modifiable.commitChanges tx keysOneAndTwo).1.changes [1] 0 =
        some (.insert [1]) ∧
      getFromChanges tx.changes [1] 0 = none :=
  ⟨rfl, rfl, rfl⟩

end InMemoryTransaction

open InMemoryTransaction

/-- A transaction refines the flat store it shows: (a) over a store that reads as
`m`, after any sequence of writes it reads, and has replied, as the same writes on
`m` with its pending operations laid over; a transaction over a flat store `B` is the
case `m = B`, and a transaction nested over another one is the case where the store
is that transaction, which reads as its own flat store by (a). (b) `replace` and
`take` return what the transaction showed before the call. (c) A child transaction
committed into a parent with `ConflictPolicy::Overwrite` succeeds and leaves the
parent reading as the writes applied to the parent's flat store. -/
theorem inMemoryTransaction_refines_flat_store {S : Type} [KeyValueInspect S] :
    (∀ (tx : InMemoryTransaction S) (m : KvMap) (operations : List Operation),
      ReadsAs tx.storage m →
      ReadsAs (runOperations tx operations).1 (runOperations (m.overlay tx.changes) operations).1 ∧
        (runOperations tx operations).2 = (runOperations (m.overlay tx.changes) operations).2) ∧
    (∀ (tx : InMemoryTransaction S) (key : Bytes) (column : Nat) (value : Bytes),
      (replace tx key column value).2 = get tx key column ∧
        (take tx key column).2 = get tx key column) ∧
    (∀ (parent : InMemoryTransaction S) (m : KvMap) (policy : ConflictPolicy)
        (operations : List Operation),
      ReadsAs parent.storage m → parent.policy = .overwrite →
      (runOperations (transaction parent policy ∅) operations).1.commit.2 = .ok () ∧
        ReadsAs (runOperations (transaction parent policy ∅) operations).1.commit.1
          (runOperations (m.overlay parent.changes) operations).1) := by
  refine ⟨?_, ?_, ?_⟩
  · intro tx m operations reads
    rcases runOperations_overlay tx m reads operations with ⟨sameStorage, sameView, sameReplies⟩
    have afterReads : ReadsAs (runOperations tx operations).1.storage m := sameStorage ▸ reads
    refine ⟨?_, sameReplies⟩
    rw [← sameView]
    exact readsAs_overlay _ afterReads
  · intro tx key column value
    exact ⟨swapOperation_snd tx key column _, swapOperation_snd tx key column _⟩
  · intro parent m policy operations reads overwrites
    -- The child runs over the parent, which reads as the parent's flat store.
    let child := (runOperations (transaction parent policy ∅) operations).1
    have parentReads : ReadsAs parent (m.overlay parent.changes) := readsAs_overlay parent reads
    rcases runOperations_overlay (transaction parent policy ∅) _ parentReads operations with
      ⟨childStorage, childView, -⟩
    rcases commitChanges_overwrite parent overwrites child.changes m with
      ⟨succeeds, keepsStorage, merged⟩
    have commitEq : child.commit = Modifiable.commitChanges parent child.changes := by
      rw [commit, childStorage]
      rfl
    have committedReads : ReadsAs (Modifiable.commitChanges parent child.changes).1.storage m :=
      keepsStorage ▸ reads
    refine ⟨commitEq ▸ succeeds, ?_⟩
    have shown := readsAs_overlay _ committedReads
    rw [merged] at shown
    simp only [transaction, KvMap.overlay_empty] at childView
    rw [commitEq, ← childView]
    exact shown

/-- A flat store holding keys `[2]` and `[3]` of column 0. -/
def heldTwoAndThree : KvMap :=
  (KvMap.set ⟨fun _ _ => none⟩ 0 [2] (some [5])).set 0 [3] (some [6])

/-- Pending changes that overwrite key `[3]` of column 0. -/
def pendingKeyThree : Changes :=
  (∅ : Changes).insert 0 ((∅ : ColumnChanges).insert [3] (.insert [9]))

/-- A transaction with pending changes over a store with prior contents: taking `[2]` returns
the store's value and taking `[3]` the pending one, and the three parts hold there. -/
theorem inMemoryTransaction_refines_flat_store_over_held_keys :
    let parent : InMemoryTransaction KvMap := transaction heldTwoAndThree .overwrite pendingKeyThree
    let operations := [Operation.put [1] 0 [7], Operation.take [2] 0, Operation.take [3] 0]
    (runOperations parent operations).2 =
        [.ok .done, .ok (.previous (some [5])), .ok (.previous (some [9]))] ∧
      ReadsAs parent.storage heldTwoAndThree ∧ parent.policy = .overwrite ∧
      (ReadsAs (runOperations parent operations).1
          (runOperations (heldTwoAndThree.overlay parent.changes) operations).1 ∧
        (runOperations parent operations).2 =
          (runOperations (heldTwoAndThree.overlay parent.changes) operations).2) ∧
      ((replace parent [3] 0 [7]).2 = get parent [3] 0 ∧ (take parent [3] 0).2 = get parent [3] 0) ∧
      ((runOperations (transaction parent .fail ∅) operations).1.commit.2 = .ok () ∧
        ReadsAs (runOperations (transaction parent .fail ∅) operations).1.commit.1
          (runOperations (heldTwoAndThree.overlay parent.changes) operations).1) :=
  let parent : InMemoryTransaction KvMap := transaction heldTwoAndThree .overwrite pendingKeyThree
  let operations := [Operation.put [1] 0 [7], Operation.take [2] 0, Operation.take [3] 0]
  ⟨rfl, ReadsAs.refl heldTwoAndThree, rfl,
    inMemoryTransaction_refines_flat_store.1 parent heldTwoAndThree operations
      (ReadsAs.refl heldTwoAndThree),
    inMemoryTransaction_refines_flat_store.2.1 parent [3] 0 [7],
    inMemoryTransaction_refines_flat_store.2.2 parent heldTwoAndThree .fail operations
      (ReadsAs.refl heldTwoAndThree) rfl⟩

end FuelCore.Storage
