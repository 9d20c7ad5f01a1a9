import Mathlib.Data.PNat.Basic
import FuelCore.Lib.AList
import FuelCore.Lib.OrderedKeys
import FuelCore.Lib.ReverseIndex
import FuelCore.Storage.TransactionalRefinement

/-! # The historical database

`historical_rocksdb.rs`: a RocksDB store whose commits at a height also store the
changes that undo them. `ModificationsHistoryV2` holds, for each height, the reverse
changes of the commit at that height, and each original column has a
`HistoricalDuplicateColumn` holding the same reverse operations under the key followed by
the big-endian height. A view at a height reads a key from the first duplicate entry at
or after the next height, and from the original column if there is none; a rollback
applies the reverse changes of the latest height.

The columns of the one RocksDB instance are separate maps here: the original columns a
flat store, each duplicate column an ordered store (a finite map whose forward seek is
`AList.seekForward`), and the history a map from heights. The databases modelled have no
`ModificationsHistoryV1` entries, so `has_v1_history` is false and the V1 paths are left
out. The duplicate columns keep the reverse operations themselves rather than their
postcard encoding, whose round trip the view relies on; RocksDB's own errors are not
modelled.
-/

namespace FuelCore.Storage

open AList ByteOrder

inductive StateRewindPolicy
  | noRewind
  | rewindFullRange
  | rewindRange (size : ℕ+)
  deriving DecidableEq

/-- The errors of the modelled paths. -/
inductive HistoryError
  /-- `DatabaseError::NoHistoryForRequestedHeight`. -/
  | noHistoryForRequestedHeight (requestedHeight : ℕ)
  /-- `not_found!(ModificationsHistoryV2)`. -/
  | notFound
  deriving DecidableEq, Repr

/-- `DatabaseError::ConflictingChanges`, the error of a batch that writes a key twice. -/
inductive DatabaseError
  | conflictingChanges (column : Nat) (key : Bytes)
  deriving DecidableEq, Repr

/-- `u64::MAX`. -/
def u64Max : ℕ := 2 ^ 64 - 1

/-- `height_key`: the key followed by the eight big-endian bytes of the height. -/
def heightKey (key : Bytes) (height : ℕ) : Bytes :=
  key ++ toBeBytes 8 height

/-- A `HistoricalDuplicateColumn`: reverse operations under height keys. -/
abbrev DuplicateColumn := AList fun _ : Bytes => WriteOperation

/-- `HistoricalRocksDB` over its `RocksDb<Historical<Description>>`. -/
structure HistoricalRocksDb where
  stateRewindPolicy : StateRewindPolicy
  /-- The `OriginalColumn`s. -/
  original : KvMap
  /-- The `HistoricalDuplicateColumn`s, by the id of their original column. -/
  duplicates : Nat → DuplicateColumn
  /-- `ModificationsHistoryV2`: the reverse changes of each height. -/
  history : AList fun _ : ℕ => Changes

/-- The match of `reverse_history_changes`: the operation that undoes a write, given the
value before it, and nothing where the write changes nothing. -/
def reverseOperation : Option Bytes → WriteOperation → Option WriteOperation
  | none, .remove => none
  | none, .insert _ => some .remove
  | some oldValue, .remove => some (.insert oldValue)
  | some oldValue, .insert newValue =>
      if oldValue ≠ newValue then some (.insert oldValue) else none

/-- `RocksDb::_populate_batch`: the (column, key) pairs written so far, refusing a pair
written twice. -/
def populateBatch (written : List (Nat × Bytes)) (changes : Changes) :
    Except DatabaseError (List (Nat × Bytes)) :=
  changes.entries.foldlM (fun written column =>
    column.2.entries.foldlM (fun written write =>
      if (column.1, write.1) ∈ written then .error (.conflictingChanges column.1 write.1)
      else .ok ((column.1, write.1) :: written)) written) written

/-- `RocksDb::commit_changes`: every element's writes go into one batch, refused as a whole
when a (column, key) is written twice. -/
def rocksDbCommitChanges (original : KvMap) : StorageChanges → Except DatabaseError KvMap
  | .changes changes => (populateBatch [] changes).map fun _ => original.overlay changes
  | .changesList list => (list.foldlM populateBatch []).map fun _ => list.foldl KvMap.overlay original

/-- `list.into_iter().flatten().collect()` into `Changes`: the columns of every element in
turn, where a later element's map of a column replaces an earlier one's. -/
def flattenChanges (list : List Changes) : Changes :=
  list.foldl (fun all changes => all.insertEach changes.entries) ∅

namespace HistoricalRocksDb

/-- `HistoricalRocksDB::new` over a store whose original columns hold `original`. -/
def new (original : KvMap) (stateRewindPolicy : StateRewindPolicy) : HistoricalRocksDb :=
  ⟨stateRewindPolicy, original, fun _ => ∅, ∅⟩

variable (db : HistoricalRocksDb)

/-- The loop of `reverse_history_changes` over the writes to one column, read against the
original column. -/
def reverseColumnChanges (column : Nat) (entry columnChanges : ColumnChanges) : ColumnChanges :=
  columnChanges.entries.foldl (fun entry change =>
    match reverseOperation (db.original.lookup column change.1) change.2 with
    | some operation => entry.insert change.1 operation
    | none => entry) entry

/-- `reverse_history_changes`. -/
def reverseHistoryChanges (changes : Changes) : Changes :=
  changes.entries.foldl (fun reverseChanges change =>
    reverseChanges.modifyD change.1 ∅ fun entry =>
      db.reverseColumnChanges change.1 entry change.2) ∅

/-- `remove_historical_modifications`: erase the duplicate entries at a height of every
key the reverse changes hold. -/
def removeHistoricalModifications (height : ℕ) (reverseChanges : Changes) : HistoricalRocksDb :=
  { db with
    duplicates := reverseChanges.entries.foldl (fun duplicates change =>
      Function.update duplicates change.1
        (eraseKeys (change.2.keys.map (heightKey · height)) (duplicates change.1)))
      db.duplicates }

/-- The duplicate entries `store_modifications_history` writes: each reverse operation
under its height key. -/
def duplicateHistoryChanges (height : ℕ) (reverseChanges : Changes) : HistoricalRocksDb :=
  { db with
    duplicates := reverseChanges.entries.foldl (fun duplicates change =>
      Function.update duplicates change.1
        ((duplicates change.1).insertEach
          (change.2.entries.map fun entry => ⟨heightKey entry.1 height, entry.2⟩)))
      db.duplicates }

/-- `cleanup_old_changes`: under `RewindRange { size }`, drop the history of the height
`size` below the new one. -/
def cleanupOldChanges (height : ℕ) : HistoricalRocksDb :=
  match db.stateRewindPolicy with
  | .noRewind => db
  | .rewindFullRange => db
  | .rewindRange size =>
      let oldHeight := height - size
      match db.history.lookup oldHeight with
      | none => db
      | some oldChanges =>
          ({ db with history := db.history.erase oldHeight }).removeHistoricalModifications
            oldHeight oldChanges

/-- `store_modifications_history`: the reverse changes are read against the database
before the commit; a height committed twice loses the duplicates of its first commit. -/
def storeModificationsHistory (changes : Changes) (height : ℕ) : HistoricalRocksDb :=
  if db.stateRewindPolicy = StateRewindPolicy.noRewind then db
  else
    let reverseChanges := db.reverseHistoryChanges changes
    let cleaned := db.cleanupOldChanges height
    let replaced := { cleaned with history := cleaned.history.insert height reverseChanges }
    let removed :=
      match cleaned.history.lookup height with
      | some oldChanges => replaced.removeHistoricalModifications height oldChanges
      | none => replaced
    removed.duplicateHistoryChanges height reverseChanges

@[simp] theorem original_removeHistoricalModifications (height : ℕ) (reverseChanges : Changes) :
    (db.removeHistoricalModifications height reverseChanges).original = db.original := rfl

@[simp] theorem history_removeHistoricalModifications (height : ℕ) (reverseChanges : Changes) :
    (db.removeHistoricalModifications height reverseChanges).history = db.history := rfl

@[simp] theorem original_duplicateHistoryChanges (height : ℕ) (reverseChanges : Changes) :
    (db.duplicateHistoryChanges height reverseChanges).original = db.original := rfl

@[simp] theorem history_duplicateHistoryChanges (height : ℕ) (reverseChanges : Changes) :
    (db.duplicateHistoryChanges height reverseChanges).history = db.history := rfl

@[simp] theorem stateRewindPolicy_duplicateHistoryChanges (height : ℕ) (reverseChanges : Changes) :
    (db.duplicateHistoryChanges height reverseChanges).stateRewindPolicy = db.stateRewindPolicy :=
  rfl

@[simp] theorem original_cleanupOldChanges (height : ℕ) :
    (db.cleanupOldChanges height).original = db.original := by
  unfold cleanupOldChanges
  split
  · rfl
  · rfl
  · dsimp only
    split <;> rfl

@[simp] theorem stateRewindPolicy_cleanupOldChanges (height : ℕ) :
    (db.cleanupOldChanges height).stateRewindPolicy = db.stateRewindPolicy := by
  unfold cleanupOldChanges
  split
  · rfl
  · rfl
  · dsimp only
    split <;> rfl

theorem storeModificationsHistory_of_fresh {changes : Changes} {height : ℕ}
    (rewinds : db.stateRewindPolicy ≠ StateRewindPolicy.noRewind)
    (fresh : (db.cleanupOldChanges height).history.lookup height = none) :
    db.storeModificationsHistory changes height =
      ({ db.cleanupOldChanges height with
        history := (db.cleanupOldChanges height).history.insert height
          (db.reverseHistoryChanges changes) }).duplicateHistoryChanges height
        (db.reverseHistoryChanges changes) := by
  simp only [storeModificationsHistory, rewinds, if_false, fresh]

/-- `TransactableStorage::commit_changes` with `StorageChanges::Changes`. -/
def commitChanges (height : Option ℕ) (changes : Changes) : HistoricalRocksDb :=
  let stored :=
    match height with
    | some height =>
        if db.stateRewindPolicy ≠ StateRewindPolicy.noRewind then
          db.storeModificationsHistory changes height
        else db
    | none => db
  { stored with original := stored.original.overlay changes }

/-- `TransactableStorage::commit_changes` with any `StorageChanges`: a commit at a height
that keeps history flattens a list into one `Changes` first; any other goes to RocksDB as
it is. -/
def commitStorageChanges (height : Option ℕ) (changes : StorageChanges) :
    Except DatabaseError HistoricalRocksDb :=
  match height with
  | some height =>
      if db.stateRewindPolicy ≠ StateRewindPolicy.noRewind then
        let allChanges :=
          match changes with
          | .changes changes => changes
          | .changesList list => flattenChanges list
        .ok (db.commitChanges (some height) allChanges)
      else (rocksDbCommitChanges db.original changes).map fun original => { db with original }
  | none => (rocksDbCommitChanges db.original changes).map fun original => { db with original }

theorem commitChanges_of_rewinds {changes : Changes} {height : ℕ}
    (rewinds : db.stateRewindPolicy ≠ StateRewindPolicy.noRewind) :
    db.commitChanges (some height) changes =
      { db.storeModificationsHistory changes height with
        original := (db.storeModificationsHistory changes height).original.overlay changes } := by
  simp only [commitChanges, ne_eq, rewinds, not_false_eq_true, if_true]

end HistoricalRocksDb

/-- `ViewAtHeight`: the height of the first reverse changes to read, over a snapshot of the
database. -/
structure ViewAtHeight where
  height : ℕ
  readDb : HistoricalRocksDb

namespace HistoricalRocksDb

variable (db : HistoricalRocksDb)

/-- `create_view_at`: the state after a height is the latest state undone down to the next
height, which needs the history of the next height or, at the latest height, of the height
itself. -/
def createViewAt (height : ℕ) : Except HistoryError ViewAtHeight :=
  let rollbackHeight := min (height + 1) u64Max
  if (db.history.lookup rollbackHeight).isSome ∨ (db.history.lookup height).isSome then
    .ok ⟨rollbackHeight, db⟩
  else .error (.noHistoryForRequestedHeight height)

/-- `rollback_block_to`: take the reverse changes of the height, drop their duplicates, and
apply them to the original columns. -/
def rollbackBlockTo (heightToRollback : ℕ) : Except HistoryError HistoricalRocksDb :=
  match db.history.lookup heightToRollback with
  | none => .error .notFound
  | some lastChanges =>
      let removed :=
        ({ db with history := db.history.erase heightToRollback }).removeHistoricalModifications
          heightToRollback lastChanges
      .ok { removed with original := removed.original.overlay lastChanges }

theorem rollbackBlockTo_of_found {height : ℕ} {lastChanges : Changes}
    (found : db.history.lookup height = some lastChanges) :
    db.rollbackBlockTo height =
      .ok { ({ db with history := db.history.erase height }).removeHistoricalModifications height
              lastChanges with
            original := db.original.overlay lastChanges } := by
  simp only [rollbackBlockTo, found, original_removeHistoricalModifications]

theorem rollbackBlockTo_of_missing {height : ℕ} (missing : db.history.lookup height = none) :
    db.rollbackBlockTo height = .error .notFound := by
  simp only [rollbackBlockTo, missing]

end HistoricalRocksDb

/-- `ViewAtHeight::get`, with `none` where slicing `found_key[..key.len()]` panics: the
first duplicate entry at or after the key at the view's height answers if it belongs to
the key, and the original column answers otherwise. -/
def ViewAtHeight.get (view : ViewAtHeight) (key : Bytes) (column : Nat) : Option (Option Bytes) :=
  match (view.readDb.duplicates column).seekForward (heightKey key view.height) with
  | some (foundKey, operation) =>
      if key.length ≤ foundKey.length then
        if foundKey.take key.length = key then some operation.value
        else some (view.readDb.original.lookup column key)
      else none
  | none => some (view.readDb.original.lookup column key)

/-! ## Rewinding a chain -/

/-- What a node does to its database block after block: commit the next height's changes, or
roll the latest height back. -/
inductive RewindCall
  | commit (changes : Changes)
  | rollback

/-- The database with the latest height committed. -/
structure RewindState where
  db : HistoricalRocksDb
  latest : ℕ

/-- One call: `commit_changes(Some(latest + 1), Changes(changes))`, or
`rollback_block_to(latest)` followed by the rolled-back height, as
`Database::rollback_last_block` does; a failed rollback changes nothing. -/
def RewindCall.run (state : RewindState) : RewindCall → RewindState
  | .commit changes => ⟨state.db.commitChanges (some (state.latest + 1)) changes, state.latest + 1⟩
  | .rollback =>
      match state.db.rollbackBlockTo state.latest with
      | .ok db => ⟨db, state.latest - 1⟩
      | .error _ => state

def runRewindCalls (state : RewindState) (calls : List RewindCall) : RewindState :=
  calls.foldl RewindCall.run state

end FuelCore.Storage
