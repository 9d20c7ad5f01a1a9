import FuelCore.Poa.RedisScripts

/-! # The leader-lease adapter's decisions

The pure part of `RedisLeaderLeaseAdapter` (`service/adapters/consensus_module/poa.rs`):
the quorum size, how the replies of one fan-out to every node are counted, and the
reconciliation loop of `unreconciled_blocks`, which folds the stream entries read
from each node into per-height votes and either takes a quorum block, re-proposes a
sub-quorum block (`repair_sub_quorum_block`) or stops.

The Rust maps are `HashMap`s. Their iteration order only decides which candidate
`max_by_key` returns when two block ids tie on their highest epoch; the model
iterates them in insertion order, one of the orders a `HashMap` may produce.
-/

namespace FuelCore.Poa

/-- `RedisLeaderLeaseAdapter::calculate_quorum`: a strict majority plus the
disruption budget, capped at the number of nodes. -/
def calculateQuorum (redisNodesLen quorumDisruptionBudget : Nat) : Nat :=
  min (redisNodesLen / 2 + 1 + quorumDisruptionBudget) redisNodesLen

/-- `RedisLeaderLeaseAdapter::quorum_reached`. -/
def quorumReached (quorum successCount : Nat) : Bool :=
  decide (quorum ≤ successCount)

/-- The outcome of `write_block.lua` on one node as `publish_block_on_all_nodes`
reports it; `failed` covers connection errors, timeouts and nodes the publish
abandoned after reaching quorum. -/
inductive WriteBlockResult
  | written
  | heightExists
  | fencingRejected
  | failed
  deriving DecidableEq, Repr

/-- How many nodes report a fresh write. -/
def writtenCount (results : List WriteBlockResult) : Nat :=
  results.count .written

/-- `publish_produced_block`: the block is published when a quorum of nodes wrote it. -/
def publishSucceeded (quorum : Nat) (results : List WriteBlockResult) : Bool :=
  quorumReached quorum (writtenCount results)

/-- `repair_sub_quorum_block` after its publish: a fencing rejection on any node
aborts the repair; otherwise the nodes that already had the block and the nodes that
newly wrote it must together reach quorum. `HEIGHT_EXISTS` is not counted. -/
def repairOutcome (quorum preExistingCount : Nat) (results : List WriteBlockResult) :
    Except Unit Bool :=
  if results.contains .fencingRejected then .error ()
  else .ok (quorumReached quorum (preExistingCount + writtenCount results))

/-! ## Votes per block id -/

/-- `HashMap::insert` on an association list: overwrite a present key in place,
append a new one. -/
def assocInsert {κ ν : Type} [DecidableEq κ] (key : κ) (value : ν) :
    List (κ × ν) → List (κ × ν)
  | [] => [(key, value)]
  | (k, v) :: rest => if k = key then (key, value) :: rest else (k, v) :: assocInsert key value rest

/-- Does a node's read contain an entry at `height` (`contains_key` on its map). -/
def hasHeight (height : Nat) (entries : List StreamEntry) : Bool :=
  entries.any fun entry => entry.height == height

/-- The inner `HashMap<u64, SealedBlock>` of one node at `height`: the entries at
that height keyed by epoch, a later entry overwriting an earlier one of the same epoch. -/
def epochsAtHeight (height : Nat) (entries : List StreamEntry) : List (Nat × SealedBlock) :=
  entries.foldl (fun epochs entry =>
    if entry.height = height then assocInsert entry.epoch entry.data epochs else epochs) []

/-- The value of the `votes` map: highest epoch seen, number of copies, the block. -/
structure Vote where
  maxEpoch : Nat
  count : Nat
  block : SealedBlock
  deriving DecidableEq, Repr

/-- One step of the `votes` fold: a copy of `block` written under `epoch`. -/
def castVote (votes : List (Nat × Vote)) (epoch : Nat) (block : SealedBlock) :
    List (Nat × Vote) :=
  match votes.lookup block.blockId with
  | some vote =>
      assocInsert block.blockId
        { vote with count := vote.count + 1, maxEpoch := max vote.maxEpoch epoch } votes
  | none => assocInsert block.blockId { maxEpoch := epoch, count := 1, block } votes

/-- The `votes` map at `height`, over every node's copies at that height. -/
def tallyVotes (height : Nat) (blocksByNode : List (List StreamEntry)) : List (Nat × Vote) :=
  blocksByNode.foldl (fun votes entries =>
    (epochsAtHeight height entries).foldl (fun votes copy => castVote votes copy.1 copy.2) votes)
    []

/-- `max_by_key` on the highest epoch: the last maximal candidate wins. -/
def selectWinner (votes : List (Nat × Vote)) : Option Vote :=
  votes.foldl (fun best candidate =>
    match best with
    | none => some candidate.2
    | some current => if current.maxEpoch ≤ candidate.2.maxEpoch then some candidate.2 else best)
    none

/-! ## The reconciliation loop -/

/-- Why `leader_state` fails; each is an `anyhow!` of `poa.rs`. -/
inductive ReconcileError
  /-- "Cannot reconcile: only .. Redis nodes responded". -/
  | notEnoughReads
  /-- "stream indicates backlog but no entries found at next height". -/
  | backlogWithoutEntries
  /-- "repair failed to reach quorum". -/
  | repairFailed
  /-- "repair error": fencing token missing or fencing rejection. -/
  | repairError
  /-- "no winning block candidate". -/
  | noWinner
  deriving DecidableEq, Repr

/-- The loop state of `unreconciled_blocks` at the top of an iteration: the
successful reads, the blocks reconciled so far, the height under examination and
how many iterations of `0..max_reconcile_blocks_per_round` are left. -/
structure ReconcileRound where
  blocksByNode : List (List StreamEntry)
  reconciled : List SealedBlock
  currentHeight : Nat
  remaining : Nat
  deriving DecidableEq, Repr

/-- Where the loop stops: with its result, or suspended on a repair publish of
`block`, found on `preExistingCount` copies. -/
inductive ReconcileStep
  | finished (result : Except ReconcileError (List SealedBlock))
  | repair (block : SealedBlock) (preExistingCount : Nat) (round : ReconcileRound)
  deriving DecidableEq, Repr

/-- A failure ends the round with an error when nothing was reconciled yet, and
with the blocks reconciled so far otherwise (the `break`). -/
def stopOrFail (reconciled : List SealedBlock) (error : ReconcileError) :
    Except ReconcileError (List SealedBlock) :=
  if reconciled.isEmpty then .error error else .ok reconciled

/-- The `for _ in 0..max_reconcile_blocks_per_round` loop, from `currentHeight`.
After a block is taken, `current_height.checked_add(1)` ends the loop at `u32::MAX`. -/
def reconcileLoop (quorum : Nat) (blocksByNode : List (List StreamEntry)) :
    (remaining : Nat) → (reconciled : List SealedBlock) → (currentHeight : Nat) → ReconcileStep
  | 0, reconciled, _ => .finished (.ok reconciled)
  | remaining + 1, reconciled, currentHeight =>
      if (blocksByNode.filter (hasHeight currentHeight)).length = 0 then
        .finished (stopOrFail reconciled .backlogWithoutEntries)
      else
        match selectWinner (tallyVotes currentHeight blocksByNode) with
        | none => .finished (stopOrFail reconciled .noWinner)
        | some vote =>
            if quorumReached quorum vote.count then
              if currentHeight + 1 < 2 ^ 32 then
                reconcileLoop quorum blocksByNode remaining (reconciled ++ [vote.block])
                  (currentHeight + 1)
              else .finished (.ok (reconciled ++ [vote.block]))
            else .repair vote.block vote.count ⟨blocksByNode, reconciled, currentHeight, remaining⟩

/-- The loop after `repair_sub_quorum_block` returned: a repaired block is taken
and the loop goes on at the next height; a failed or aborted repair stops it. -/
def resumeAfterRepair (quorum : Nat) (round : ReconcileRound) (block : SealedBlock) :
    Except Unit Bool → ReconcileStep
  | .ok true =>
      if round.currentHeight + 1 < 2 ^ 32 then
        reconcileLoop quorum round.blocksByNode round.remaining (round.reconciled ++ [block])
          (round.currentHeight + 1)
      else .finished (.ok (round.reconciled ++ [block]))
  | .ok false => .finished (stopOrFail round.reconciled .repairFailed)
  | .error () => .finished (stopOrFail round.reconciled .repairError)

/-- `should_reconcile_from_stream`: one slot per node, `none` for a failed read and
`some latest` for the newest height of its stream. Fails without a quorum of reads;
otherwise reports a backlog when some node's newest entry is at or above `nextHeight`. -/
def shouldReconcileFromStream (quorum nextHeight : Nat) (reads : List (Option (Option Nat))) :
    Except ReconcileError Bool :=
  if quorumReached quorum (reads.filterMap id).length then
    .ok (reads.any fun read => match read with
      | some (some latestHeight) => decide (nextHeight ≤ latestHeight)
      | _ => false)
  else .error .notEnoughReads

/-- The start of the reconciliation of `unreconciled_blocks`, after the stream reads:
without a quorum of successful reads it fails, otherwise the loop runs from `nextHeight`. -/
def startReconciliation (quorum streamMaxLen nextHeight : Nat)
    (reads : List (Option (List StreamEntry))) : ReconcileStep :=
  let successfulReads := reads.filterMap id
  if quorumReached quorum successfulReads.length then
    reconcileLoop quorum successfulReads streamMaxLen [] nextHeight
  else .finished (.error .notEnoughReads)

end FuelCore.Poa
