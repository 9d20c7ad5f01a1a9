import FuelCore.Lib.AList

/-! # The on-chain database under the importer

The tables the block importer reads and writes, and `commit_changes_with_height_update`
of `database.rs`, through which every commit of the on-chain database goes.

A table entry is a `DbKey` (the table and the key in it) with its encoded value. The
model keeps the values the importer compares: the id of a compressed block, the root
of the block Merkle tree, the height in the metadata table; every other value is an
opaque number. Heights are `u32` and their keys big-endian, so the last `FuelBlocks`
key in byte order is the greatest height: `latestBlockHeight` takes the maximum.
A commit of the data source is one atomic write batch; whether the write succeeds is
an input of the model.
-/

namespace FuelCore.Importer

/-- The block heights are `u32`. -/
def heightLimit : Nat := 2 ^ 32

/-- A key of the on-chain database, by table. `other` stands for the columns only
the executor writes. -/
inductive DbKey
  | fuelBlocks (height : Nat)
  | sealedBlockConsensus (height : Nat)
  | transactions (txId : Nat)
  /-- `FuelBlockMerkleMetadata` at `DenseMetadataKey::Primary(height)`. -/
  | blockMerklePrimary (height : Nat)
  /-- `FuelBlockMerkleMetadata` at `DenseMetadataKey::Latest`. -/
  | blockMerkleLatest
  | metadata
  | other (column key : Nat)
  deriving DecidableEq, Repr

/-- The height of a `FuelBlocks` key. -/
def DbKey.blockHeight : DbKey → Option Nat
  | .fuelBlocks height => some height
  | _ => none

/-- The committed content of the database. -/
abbrev Store := AList fun _ : DbKey => Nat

/-- `Changes`: an `Insert` (`some`) or a `Remove` (`none`) per key. -/
abbrev Changes := AList fun _ : DbKey => Option Nat

/-- A read through pending changes: the change at the key, else the store. -/
def readThrough (store : Store) (changes : Changes) (key : DbKey) : Option Nat :=
  match changes.lookup key with
  | some operation => operation
  | none => store.lookup key

def applyChanges (store : Store) (changes : Changes) : Store :=
  changes.entries.foldl (fun store entry =>
    match entry.2 with
    | some value => store.insert entry.1 value
    | none => store.erase entry.1) store

/-- Apply a `StorageChanges::ChangesList`, in order. -/
def applyChangesList (store : Store) (list : List Changes) : Store :=
  list.foldl applyChanges store

/-- `ImporterDatabase::latest_block_height`: the last key of `FuelBlocks`. -/
def latestBlockHeight (store : Store) : Option Nat :=
  (store.keys.filterMap DbKey.blockHeight).max?

/-- `ImporterDatabase::latest_block_root`: the root in `FuelBlockMerkleMetadata` at
`Latest`. -/
def latestBlockRoot (store : Store) : Option Nat :=
  store.lookup .blockMerkleLatest

/-- `DatabaseTransaction::latest_block_root` on a transaction holding `changes`. -/
def transactionLatestBlockRoot (store : Store) (changes : Changes) : Option Nat :=
  readThrough store changes .blockMerkleLatest

/-- The database: its committed tables and the height cached in its stage, which
the metadata table also records. -/
structure Database where
  store : Store
  height : Option Nat

inductive DatabaseError
  | multipleHeightsInCommit (heights : List Nat)
  | failedToAdvanceHeight
  | heightsAreNotLinked (prevHeight newHeight : Nat)
  | newHeightIsNotSet (prevHeight : Nat)
  /-- The data source failed to write the batch. -/
  | dataSource
  deriving DecidableEq, Repr

/-- The heights lookup of the on-chain database: the `FuelBlocks` keys that the
changes insert, over every `Changes` of the list. A key removed by a change is not
listed; a key inserted by two of the `Changes` is listed twice. -/
def newHeights (list : List Changes) : List Nat :=
  list.flatMap fun changes =>
    changes.entries.filterMap fun entry =>
      match entry.2 with
      | some _ => entry.1.blockHeight
      | none => none

/-- The change the commit adds for the metadata table at a new height. -/
def metadataChanges (height : Nat) : Changes :=
  AList.singleton DbKey.metadata (some height)

/-- The write of `database.data.commit_changes`: all the changes or none of them. -/
def writeChanges (database : Database) (newHeight : Option Nat) (list : List Changes)
    (written : Bool) : Database × Except DatabaseError Unit :=
  if written then
    ({ store := applyChangesList database.store list,
       height := newHeight.or database.height }, .ok ())
  else (database, .error .dataSource)

/-- `commit_changes_with_height_update`: a commit may hold at most one new block
height, which must follow the previous height once there is one. -/
def commitChangesWithHeightUpdate (database : Database) (list : List Changes)
    (written : Bool) : Database × Except DatabaseError Unit :=
  let heights := newHeights list
  if 1 < heights.length then (database, .error (.multipleHeightsInCommit heights))
  else
    match database.height, heights.getLast? with
    | none, none => writeChanges database none list written
    | some prevHeight, some newHeight =>
        if heightLimit ≤ prevHeight + 1 then (database, .error .failedToAdvanceHeight)
        else if prevHeight + 1 ≠ newHeight then
          (database, .error (.heightsAreNotLinked prevHeight newHeight))
        else writeChanges database (some newHeight) (list ++ [metadataChanges newHeight]) written
    | none, some newHeight =>
        writeChanges database (some newHeight) (list ++ [metadataChanges newHeight]) written
    | some prevHeight, none => (database, .error (.newHeightIsNotSet prevHeight))

end FuelCore.Importer
