import FuelCore.Importer.Database

/-! # The block importer

`importer.rs`: `create_block_changes` checks the block's height against the database
and prepares the writes that store it, `_commit_result` checks that the execution
changes left the block root alone and commits both through
`commit_changes_with_height_update`, and `Importer::commit_result` and
`Importer::execute_and_commit` run them behind the importer's guard.

What the environment decides is an input of each call: whether the guard and the
notification permit are free, what the verifier and the executor return, whether the
reconciliation publish and the database write succeed. The block Merkle tree is the
function `push` from the previous `Latest` metadata and the pushed block to the new
one. A block is kept as its height, id, consensus and transaction ids.
-/

namespace FuelCore.Importer

/-- `Consensus`, as far as `create_block_changes` tells its variants apart. -/
inductive Consensus
  | genesis
  | poa
  /-- Any further variant of the non-exhaustive enum. -/
  | other
  deriving DecidableEq, Repr

/-- The encoded consensus stored in `SealedBlockConsensus`. -/
def Consensus.encode : Consensus → Nat
  | .genesis => 0
  | .poa => 1
  | .other => 2

structure SealedBlock where
  height : Nat
  blockId : Nat
  consensus : Consensus
  transactions : List Nat
  deriving DecidableEq, Repr

inductive Source
  | network
  | local
  deriving DecidableEq, Repr

inductive StorageError
  /-- `not_found!`. -/
  | notFound (what : String)
  /-- "It is not allowed to remove or override entries in the merklelized table". -/
  | merklizedOverride
  | database (error : DatabaseError)
  deriving DecidableEq, Repr

/-- `importer::Error`. -/
inductive ImporterError
  | semaphore
  | invalidUnderlyingDatabaseGenesisState
  | invalidDatabaseStateAfterExecution (expected actual : Option Nat)
  | overflow
  | zeroNonGenericHeight
  | incorrectBlockHeight (expected actual : Nat)
  | failedVerification
  | failedExecution
  | executeGenesis
  | notUnique (height : Nat)
  | previousBlockProcessingNotFinished
  | failedBlockReconciliationWrite
  | storage (error : StorageError)
  | unsupportedConsensusVariant
  deriving DecidableEq, Repr

/-! ## Preparing the block changes -/

/-- The `replace` calls of `store_new_block` on plain tables: record the value and
report whether the key held one, reading through the changes made so far. -/
def replaceEntry (store : Store) (changes : Changes) (key : DbKey) (value : Nat) :
    Changes × Bool :=
  (changes.insert key (some value), (readThrough store changes key).isSome)

/-- The transactions of the block, each replaced in turn. -/
def replaceTransactions (store : Store) : List Nat → Changes × Bool → Changes × Bool
  | [], result => result
  | txId :: rest, (changes, found) =>
      let replaced := replaceEntry store changes (.transactions txId) txId
      replaceTransactions store rest (replaced.1, found || replaced.2)

/-- `store_new_block` on a transaction over the database: the `FuelBlocks` entry,
which the Merklized blueprint refuses to override, pushes the block into the block
Merkle tree; the consensus and the transactions are plain `replace`s. Returns the
changes and whether the block is new. -/
def storeNewBlock (push : Option Nat → Nat → Nat) (store : Store) (block : SealedBlock) :
    Except StorageError (Changes × Bool) :=
  if (store.lookup (DbKey.fuelBlocks block.height)).isSome then .error .merklizedOverride
  else
    let metadata := push (store.lookup DbKey.blockMerkleLatest) block.blockId
    let changes : Changes :=
      ((∅ : Changes).insert (DbKey.fuelBlocks block.height) (some block.blockId)
        |>.insert (DbKey.blockMerklePrimary block.height) (some metadata)
        |>.insert DbKey.blockMerkleLatest (some metadata))
    let consensus := replaceEntry store changes (.sealedBlockConsensus block.height)
      block.consensus.encode
    let stored := replaceTransactions store block.transactions consensus
    .ok (stored.1, !stored.2)

/-- The height `create_block_changes` expects of the block. -/
def expectedNextHeight (store : Store) (block : SealedBlock) : Except ImporterError Nat :=
  match block.consensus with
  | .genesis =>
      if (latestBlockHeight store).isSome then .error .invalidUnderlyingDatabaseGenesisState
      else .ok block.height
  | .poa =>
      if block.height = 0 then .error .zeroNonGenericHeight
      else
        match latestBlockHeight store with
        | none => .error (.storage (.notFound "Latest block height"))
        | some lastHeight =>
            if lastHeight + 1 < heightLimit then .ok (lastHeight + 1) else .error .overflow
  | .other => .error .unsupportedConsensusVariant

/-- `create_block_changes`. -/
def createBlockChanges (push : Option Nat → Nat → Nat) (store : Store) (block : SealedBlock) :
    Except ImporterError Changes :=
  match expectedNextHeight store block with
  | .error error => .error error
  | .ok expected =>
      if expected ≠ block.height then .error (.incorrectBlockHeight expected block.height)
      else
        match storeNewBlock push store block with
        | .error error => .error (.storage error)
        | .ok (changes, unique) => if unique then .ok changes else .error (.notUnique block.height)

/-! ## Committing -/

/-- `_commit_result`: the execution changes must leave the latest block root as it
was, a locally produced block is published for reconciliation, and the block changes
and the execution changes are committed as one `ChangesList`. -/
def commitPrepared (database : Database) (source : Source)
    (blockChanges executionChanges : Changes) (published written : Bool) :
    Database × Except ImporterError Unit :=
  let expectedRoot := latestBlockRoot database.store
  let actualRoot := transactionLatestBlockRoot database.store executionChanges
  if actualRoot ≠ expectedRoot then
    (database, .error (.invalidDatabaseStateAfterExecution expectedRoot actualRoot))
  else if source = .local ∧ !published then (database, .error .failedBlockReconciliationWrite)
  else
    let committed :=
      commitChangesWithHeightUpdate database [blockChanges, executionChanges] written
    (committed.1, committed.2.mapError fun error => .storage (.database error))

/-- What the environment answers during one call. -/
structure Environment where
  /-- `self.guard.try_acquire()` succeeds: no other call is in progress. -/
  guardFree : Bool
  /-- The notification permit is acquired within the timeout. -/
  permitAcquired : Bool
  /-- `publish_produced_block` succeeds. -/
  published : Bool
  /-- The data source writes the batch. -/
  written : Bool
  deriving DecidableEq, Repr

/-- `Importer::commit_result` for a block executed elsewhere, with its source and
execution changes. -/
def commitResult (push : Option Nat → Nat → Nat) (database : Database) (block : SealedBlock)
    (source : Source) (executionChanges : Changes) (environment : Environment) :
    Database × Except ImporterError Unit :=
  if !environment.guardFree then (database, .error .semaphore)
  else if !environment.permitAcquired then
    (database, .error .previousBlockProcessingNotFinished)
  else
    match createBlockChanges push database.store block with
    | .error error => (database, .error error)
    | .ok blockChanges =>
        commitPrepared database source blockChanges executionChanges
          environment.published environment.written

/-- `verify_and_execute_block_inner`, given the verifier's and the executor's answers. -/
def verifyAndExecute (block : SealedBlock) (verified : Bool)
    (execution : Except Unit Changes) : Except ImporterError Changes :=
  if !verified then .error .failedVerification
  else if block.consensus = .genesis then .error .executeGenesis
  else execution.mapError fun _ => .failedExecution

/-- `Importer::execute_and_commit`: the block changes and the execution are prepared
side by side (an execution error is reported first), then committed as a block from
the network. -/
def executeAndCommit (push : Option Nat → Nat → Nat) (database : Database)
    (block : SealedBlock) (verified : Bool) (execution : Except Unit Changes)
    (environment : Environment) : Database × Except ImporterError Unit :=
  if !environment.guardFree then (database, .error .semaphore)
  else
    match verifyAndExecute block verified execution, createBlockChanges push database.store block with
    | .error error, _ => (database, .error error)
    | .ok _, .error error => (database, .error error)
    | .ok executionChanges, .ok blockChanges =>
        if !environment.permitAcquired then
          (database, .error .previousBlockProcessingNotFinished)
        else
          commitPrepared database .network blockChanges executionChanges
            environment.published environment.written

/-! ## Runs -/

/-- One call of the importer's API. -/
inductive Call
  | commitResult (block : SealedBlock) (source : Source) (executionChanges : Changes)
      (environment : Environment)
  | executeAndCommit (block : SealedBlock) (verified : Bool) (execution : Except Unit Changes)
      (environment : Environment)

def Call.block : Call → SealedBlock
  | .commitResult block .. => block
  | .executeAndCommit block .. => block

def Call.run (push : Option Nat → Nat → Nat) (database : Database) :
    Call → Database × Except ImporterError Unit
  | .commitResult block source executionChanges environment =>
      FuelCore.Importer.commitResult push database block source executionChanges environment
  | .executeAndCommit block verified execution environment =>
      FuelCore.Importer.executeAndCommit push database block verified execution environment

/-- One call of a run: the database before it, the call, the database it leaves and
its result. -/
structure ImportStep where
  before : Database
  call : Call
  after : Database
  result : Except ImporterError Unit

/-- The steps of a sequence of calls, each starting from the database the previous one
left. -/
def runCalls (push : Option Nat → Nat → Nat) (database : Database) :
    List Call → List ImportStep
  | [] => []
  | call :: calls =>
      let after := call.run push database
      ⟨database, call, after.1, after.2⟩ :: runCalls push after.1 calls

end FuelCore.Importer
