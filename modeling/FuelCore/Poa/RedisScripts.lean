import Mathlib.Data.List.Basic
import Mathlib.Algebra.GroupWithZero.Nat

/-! # Redis leader-lease scripts

The state one Redis node keeps for the high-availability PoA sequencer, and the
six Lua scripts of `redis_leader_lease_adapter_scripts/` as functions on it.
Redis runs a script atomically, and a script that replies with an error keeps the
writes it made before the error: `write_block.lua` heals the epoch before it may
reject a write with `HEIGHT_EXISTS`, and the model keeps that.

A node holds the lease key (its owner token, or nothing once the TTL ran out), the
epoch counter and the block stream, oldest entry first. Lease TTLs and `PEXPIRE`
renewals are not modelled: a lease may expire at any moment of a run.
-/

namespace FuelCore.Poa

/-- A sealed block as the lease protocol sees it: its header height and its id
(`block.entity.id()`); two blocks are the same block exactly when their ids agree. -/
structure SealedBlock where
  height : Nat
  blockId : Nat
  deriving DecidableEq, Repr

/-- One entry of the block stream, with the fields `write_block.lua` writes. -/
structure StreamEntry where
  height : Nat
  data : SealedBlock
  epoch : Nat
  deriving DecidableEq, Repr

/-- The keys one Redis node holds for the lease protocol. -/
structure RedisState where
  /-- `poa:leader:lock`: the owner token, absent when released or expired. -/
  lease : Option Nat
  /-- `poa:leader:lock:epoch:token`; a missing key reads as `0`. -/
  epoch : Nat
  /-- `poa:leader:lock:block:stream`, oldest entry first. -/
  stream : List StreamEntry
  deriving DecidableEq, Repr

/-- A node that has never been written to. -/
def RedisState.empty : RedisState where
  lease := none
  epoch := 0
  stream := []

/-- The error replies of the scripts, by the prefix the adapter matches on. -/
inductive ScriptError
  | lockHeld
  | fencingLockLost
  | fencingStaleToken
  | heightExists
  deriving DecidableEq, Repr

/-! ## Lease scripts -/

/-- `promote_leader.lua`: `SET lock owner PX ttl NX`, then `INCR` the epoch and
return the new token; `LOCK_HELD` when another owner (or this one) holds the lock. -/
def promoteLeader (owner : Nat) (node : RedisState) : RedisState × Except ScriptError Nat :=
  match node.lease with
  | some _ => (node, .error .lockHeld)
  | none => ({ node with lease := some owner, epoch := node.epoch + 1 }, .ok (node.epoch + 1))

/-- `check_lease_owner.lua`: does this node still see `owner` as the lease owner. -/
def checkLeaseOwner (owner : Nat) (node : RedisState) : Bool :=
  node.lease == some owner

/-- `release_lock.lua`: delete the lease when `owner` still holds it. -/
def releaseLock (owner : Nat) (node : RedisState) : RedisState × Bool :=
  if node.lease = some owner then ({ node with lease := none }, true) else (node, false)

/-- The lease expires: its TTL ran out without a renewal. -/
def expireLease (node : RedisState) : RedisState :=
  { node with lease := none }

/-! ## `write_block.lua` -/

/-- Step 4 of `write_block.lua`: scan the stream from the newest entry towards the
oldest, report an entry at `posted`, and stop at the first entry below it. The
argument lists the entries newest first, as `XREVRANGE` returns them. -/
def heightExistsScan (posted : Nat) : List StreamEntry → Bool
  | [] => false
  | entry :: older =>
      if entry.height = posted then true
      else if entry.height < posted then false
      else heightExistsScan posted older

/-- `XTRIM MAXLEN ~ maxLen`: approximate trimming drops some of the oldest entries
but never leaves fewer than `maxLen`; `dropped` says how many Redis chose to drop. -/
def approximateTrim (maxLen dropped : Nat) (stream : List StreamEntry) : List StreamEntry :=
  stream.drop (min dropped (stream.length - maxLen))

/-- `write_block.lua`: identity check, fencing check, epoch self-healing, the
`HEIGHT_EXISTS` scan, then `XADD` and `XTRIM`. The epoch healed in step 3 stays
written when the scan then rejects the block. -/
def writeBlock (myEpoch owner height : Nat) (data : SealedBlock) (maxLen dropped : Nat)
    (node : RedisState) : RedisState × Except ScriptError Unit :=
  if node.lease ≠ some owner then (node, .error .fencingLockLost)
  else if myEpoch < node.epoch then (node, .error .fencingStaleToken)
  else
    let healed := if node.epoch < myEpoch then { node with epoch := myEpoch } else node
    if heightExistsScan height healed.stream.reverse then (healed, .error .heightExists)
    else
      let appended := healed.stream ++ [{ height, data, epoch := myEpoch }]
      ({ healed with stream := approximateTrim maxLen dropped appended }, .ok ())

/-! ## Read scripts -/

/-- `read_latest_stream_entry.lua`: the height of the newest entry (`XREVRANGE
... COUNT 1`), or nothing for an empty stream. -/
def readLatestStreamEntry (node : RedisState) : Option Nat :=
  node.stream.getLast?.map StreamEntry.height

/-- The loop of `read_stream_entries.lua`: walk the stream oldest first, keep the
entries at or above `minHeight`, and stop once `count` of them are kept. -/
def collectStreamEntries (minHeight : Nat) : Nat → List StreamEntry → List StreamEntry
  | 0, _ => []
  | _, [] => []
  | count + 1, entry :: rest =>
      if minHeight ≤ entry.height then entry :: collectStreamEntries minHeight count rest
      else collectStreamEntries minHeight (count + 1) rest

/-- `read_stream_entries.lua`: up to `count` entries at or above `minHeight`. -/
def readStreamEntries (minHeight count : Nat) (node : RedisState) : List StreamEntry :=
  collectStreamEntries minHeight count node.stream

end FuelCore.Poa
