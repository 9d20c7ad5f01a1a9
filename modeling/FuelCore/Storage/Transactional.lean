import FuelCore.Lib.AList
import FuelCore.Storage.KvStore

/-! # In-memory transactions

`transactional.rs`: an `InMemoryTransaction` collects `Changes` over a storage,
answers reads from them first and from the storage second, and hands them to its
storage on commit (`commit_changes`, under the storage's `ConflictPolicy`).
`StorageTransaction` wraps it in a `StructuredStorage`, which passes every call on
unchanged, so the model works on the transaction itself.

`Changes` is a `HashMap` of `BTreeMap`s in the source; both are association lists
here. Iteration order shows only in a `ConflictPolicy::Fail` commit that reports a
conflict, where it decides which changes were merged before the conflict: the
model iterates the lists in their order, where the `BTreeMap` goes by key.
-/

namespace FuelCore.Storage

open KeyValueInspect KeyValueMutate BatchOperations

/-- `BTreeMap<ReferenceBytesKey, WriteOperation>`: the changes to one column. -/
abbrev ColumnChanges := AList fun _ : Bytes => WriteOperation

/-- `Changes`: the changes to each column, by column id. -/
abbrev Changes := AList fun _ : Nat => ColumnChanges

/-- `StorageChanges`: one batch of changes, or a list of them to commit together. -/
inductive StorageChanges
  | changes (changes : Changes)
  | changesList (list : List Changes)

inductive ConflictPolicy
  | fail
  | overwrite
  deriving DecidableEq, Repr

structure InMemoryTransaction (S : Type) where
  changes : Changes
  policy : ConflictPolicy
  storage : S

/-- `StorageTransaction::transaction`. -/
def transaction {S : Type} (storage : S) (policy : ConflictPolicy) (changes : Changes) :
    InMemoryTransaction S :=
  ⟨changes, policy, storage⟩

/-- `get_from_changes`: the pending operation at a key, if there is one. -/
def getFromChanges (changes : Changes) (key : Bytes) (column : Nat) : Option WriteOperation :=
  (changes.lookup column).bind fun btree => btree.lookup key

namespace InMemoryTransaction

variable {S : Type}

/-! ## Reads -/

instance [KeyValueInspect S] : KeyValueInspect (InMemoryTransaction S) where
  «exists» tx key column :=
    match getFromChanges tx.changes key column with
    | some (.insert _) => .ok true
    | some .remove => .ok false
    | none => KeyValueInspect.exists tx.storage key column
  sizeOfValue tx key column :=
    match getFromChanges tx.changes key column with
    | some (.insert value) => .ok (some value.length)
    | some .remove => .ok none
    | none => sizeOfValue tx.storage key column
  get tx key column :=
    match getFromChanges tx.changes key column with
    | some (.insert value) => .ok (some value)
    | some .remove => .ok none
    | none => get tx.storage key column
  -- The two reads repeat the slicing of the default methods on a pending insert.
  readExact tx key column offset buf :=
    match getFromChanges tx.changes key column with
    | some (.insert value) =>
        let sliced := readExactValue value offset buf
        (.ok sliced.1, sliced.2)
    | some .remove => (.ok (.error .keyNotFound), buf)
    | none => readExact tx.storage key column offset buf
  readZerofill tx key column offset buf :=
    match getFromChanges tx.changes key column with
    | some (.insert value) =>
        let sliced := readZerofillValue value offset buf
        (.ok sliced.1, sliced.2)
    | some .remove => (.ok (.error .keyNotFound), buf)
    | none => readZerofill tx.storage key column offset buf

/-! ## Writes -/

/-- `self.changes.entry(column.id()).or_default().insert(key, operation)`. -/
def setOperation (tx : InMemoryTransaction S) (key : Bytes) (column : Nat)
    (operation : WriteOperation) : InMemoryTransaction S :=
  { tx with changes := tx.changes.modifyD column ∅ fun btree => btree.insert key operation }

/-- `replace` and `take`: the operation goes into the column's entry; an occupied
entry returns what its old operation left, a vacant one asks the storage. -/
def swapOperation [KeyValueInspect S] (tx : InMemoryTransaction S) (key : Bytes)
    (column : Nat) (operation : WriteOperation) :
    InMemoryTransaction S × Except StorageError (Option Bytes) :=
  match getFromChanges tx.changes key column with
  | some old => (tx.setOperation key column operation, .ok old.value)
  | none => (tx.setOperation key column operation, get tx.storage key column)

/-- `batch_write`: every entry goes into the column's map, in order. -/
def insertBatch (tx : InMemoryTransaction S) (column : Nat)
    (entries : List (Bytes × WriteOperation)) : InMemoryTransaction S :=
  { tx with
    changes := tx.changes.modifyD column ∅ fun btree =>
      entries.foldl (fun btree entry => btree.insert entry.1 entry.2) btree }

instance [KeyValueInspect S] : BatchOperations (InMemoryTransaction S) where
  put tx key column value := (tx.setOperation key column (.insert value), .ok ())
  replace tx key column value := tx.swapOperation key column (.insert value)
  write tx key column buf := (tx.setOperation key column (.insert buf), .ok buf.length)
  take tx key column := tx.swapOperation key column .remove
  delete tx key column := (tx.setOperation key column .remove, .ok ())
  batchWrite tx column entries := (tx.insertBatch column entries, .ok ())

section Writes

variable [KeyValueInspect S] (tx : InMemoryTransaction S) (key : Bytes) (column : Nat)

@[simp] theorem put_eq (value : Bytes) :
    put tx key column value = (tx.setOperation key column (.insert value), .ok ()) := rfl

@[simp] theorem write_eq (buf : Bytes) :
    write tx key column buf = (tx.setOperation key column (.insert buf), .ok buf.length) := rfl

@[simp] theorem replace_eq (value : Bytes) :
    replace tx key column value = tx.swapOperation key column (.insert value) := rfl

@[simp] theorem take_eq : take tx key column = tx.swapOperation key column .remove := rfl

@[simp] theorem delete_eq : delete tx key column = (tx.setOperation key column .remove, .ok ()) :=
  rfl

@[simp] theorem batchWrite_eq (entries : List (Bytes × WriteOperation)) :
    batchWrite tx column entries = (tx.insertBatch column entries, .ok ()) := rfl

end Writes

/-! ## Commit -/

/-- The inner loop of `commit_changes`, over the changes to a column the transaction
already has: `Fail` stops at the first key the transaction already holds, keeping
what it merged before; `Overwrite` inserts every change. -/
def mergeColumn (policy : ConflictPolicy) (btree : ColumnChanges) :
    List (Σ _ : Bytes, WriteOperation) → ColumnChanges × Except StorageError Unit
  | [] => (btree, .ok ())
  | ⟨key, operation⟩ :: rest =>
      match policy with
      | .fail =>
          match btree.lookup key with
          | some _ => (btree, .error (.conflictingOperation operation key))
          | none => mergeColumn policy (btree.insert key operation) rest
      | .overwrite => mergeColumn policy (btree.insert key operation) rest

/-- The outer loop of `commit_changes`: a column the transaction lacks is moved in
whole, any other is merged. -/
def mergeChanges (policy : ConflictPolicy) (changes : Changes) :
    List (Σ _ : Nat, ColumnChanges) → Changes × Except StorageError Unit
  | [] => (changes, .ok ())
  | ⟨column, value⟩ :: rest =>
      match changes.lookup column with
      | none => mergeChanges policy (changes.insert column value) rest
      | some btree =>
          let merged := mergeColumn policy btree value.entries
          let changes := changes.insert column merged.1
          match merged.2 with
          | .error error => (changes, .error error)
          | .ok () => mergeChanges policy changes rest

end InMemoryTransaction

class Modifiable (S : Type) where
  commitChanges : S → Changes → S × Except StorageError Unit

namespace InMemoryTransaction

variable {S : Type}

instance : Modifiable (InMemoryTransaction S) where
  commitChanges tx changes :=
    let merged := mergeChanges tx.policy tx.changes changes.entries
    ({ tx with changes := merged.1 }, merged.2)

/-- `StorageTransaction::commit`: the storage as `commit_changes` leaves it, with the
result. -/
def commit [Modifiable S] (tx : InMemoryTransaction S) : S × Except StorageError Unit :=
  Modifiable.commitChanges tx.storage tx.changes

end InMemoryTransaction

end FuelCore.Storage
