import FuelCore.Poa.LeaderLease

/-! # The sequencer cluster

Redis nodes and sequencers as one transition system. A sequencer runs
`MainTask::try_to_produce_block` through `RedisLeaderLeaseAdapter`: every adapter
call is a fan-out of one script to the nodes, awaited with `join_all` (or, for a
block publish, until a quorum of writes), so a sequencer is a phase plus the
replies gathered for the current fan-out. Script invocations travel as messages: a
node runs one when it is delivered, at any later moment, also after the adapter
gave up on it (`timeout`) or moved on; a message may also be lost before it runs.

A sequencer commits a block it produced only after `publish_produced_block`
returned `Ok`, and commits reconciled blocks in height order through the importer's
height check. A crash keeps the sequencer's database, forgets its in-memory
epoch token and restarts it with a fresh lease owner token, as
`RedisLeaderLeaseAdapter::new` draws a new UUID.
-/

namespace FuelCore.Poa

/-- The configuration of the adapter that matters to the protocol. -/
structure LeaseConfig where
  quorum : Nat
  streamMaxLen : Nat
  maxAttempts : Nat
  deriving DecidableEq, Repr

/-- A script invocation the adapter sends to a node. -/
inductive Request
  | checkLeaseOwner
  | promoteLeader
  | releaseLock
  | writeBlock (epoch : Nat) (block : SealedBlock)
  | readLatestStreamEntry
  | readStreamEntries (minHeight count : Nat)
  deriving DecidableEq, Repr

/-- A script invocation in flight: who sent it with which owner token, to which
node, and for which fan-out (`serial`) of the sender. -/
structure Message where
  sender : Nat
  owner : Nat
  node : Nat
  serial : Nat
  request : Request
  deriving DecidableEq, Repr

/-- What the adapter makes of one node's answer; `failed` is a timeout or an error. -/
inductive Reply
  | isOwner (owner : Bool)
  | promoted (token : Option Nat)
  | wrote (result : WriteBlockResult)
  | latest (height : Option Nat)
  | entries (entries : List StreamEntry)
  | failed
  deriving DecidableEq, Repr

/-- The await point of `try_to_produce_block` a sequencer is at. -/
inductive Phase
  /-- Between two rounds of the main loop. -/
  | idle
  /-- `has_lease_owner_quorum`: `check_lease_owner.lua` on every node. -/
  | checkingOwner
  /-- `has_lease_owner_quorum`: best-effort promotion on the nodes not owned yet. -/
  | expandingLock
  /-- `acquire_lease_if_free`: `promote_leader.lua` on every node. -/
  | promoting (attempt : Nat)
  /-- `acquire_lease_if_free`: `release_lock.lua` after a failed attempt. -/
  | releasing (attempt : Nat)
  /-- `should_reconcile_from_stream`: `read_latest_stream_entry.lua` on every node. -/
  | readingLatest
  /-- `unreconciled_blocks`: `read_stream_entries.lua` on every node. -/
  | readingEntries
  /-- `repair_sub_quorum_block`: the publish of `block` inside the reconciliation loop. -/
  | repairing (block : SealedBlock) (preExistingCount : Nat) (round : ReconcileRound)
  /-- `leader_state` returned `ReconciledLeader`: the next block is to be produced. -/
  | leader
  /-- `publish_produced_block` of the block the importer is committing. -/
  | publishing (block : SealedBlock)
  deriving DecidableEq, Repr

/-- One sequencer: its lease owner token, its database, the adapter's
`current_epoch_token` and where its main loop stands. -/
structure Sequencer where
  owner : Nat
  committed : List SealedBlock
  epochToken : Option Nat
  phase : Phase
  serial : Nat
  replies : List (Option Reply)
  deriving DecidableEq, Repr

/-- The whole system: nodes, sequencers and the script invocations in flight. -/
structure Cluster where
  nodes : List RedisState
  sequencers : List Sequencer
  network : List Message
  deriving DecidableEq, Repr

inductive Event
  /-- The main loop enters `try_to_produce_block`. -/
  | start (sequencer : Nat)
  /-- A node runs the message at `index`; `dropped` is the trim choice of `XTRIM ~`. -/
  | deliver (index dropped : Nat)
  /-- The message at `index` is lost before any node runs it. -/
  | lose (index : Nat)
  /-- The adapter stops waiting for `node` in the current fan-out. -/
  | timeout (sequencer node : Nat)
  /-- The awaited fan-out returns; `inTime` is the lease-validity check of a promotion. -/
  | complete (sequencer : Nat) (inTime : Bool)
  /-- The leader produces its next block, with id `blockId`. -/
  | produce (sequencer blockId : Nat)
  /-- A lease TTL runs out on `node`. -/
  | expire (node : Nat)
  /-- The sequencer process dies and restarts with owner token `newOwner`. -/
  | crash (sequencer newOwner : Nat)
  deriving DecidableEq, Repr

namespace Sequencer

/-- The height of the newest committed block (the database's latest height). -/
def latestHeight (sequencer : Sequencer) : Nat :=
  (sequencer.committed.getLast?.map SealedBlock.height).getD 0

/-- `MainTask::next_height`, with `last_height` synced from the database. -/
def nextHeight (sequencer : Sequencer) : Nat :=
  sequencer.latestHeight + 1

/-- `Importer::execute_and_commit` of one reconciled block: `create_block_changes`
accepts exactly the block at the database's latest height plus one. -/
def importBlock (sequencer : Sequencer) (block : SealedBlock) : Sequencer :=
  if block.height = sequencer.latestHeight + 1 then
    { sequencer with committed := sequencer.committed ++ [block] }
  else sequencer

/-- The `UnreconciledBlocks` branch of `try_to_produce_block`: import in order. -/
def importBlocks (sequencer : Sequencer) (blocks : List SealedBlock) : Sequencer :=
  blocks.foldl importBlock sequencer

/-- Start a fan-out of `request` to the nodes marked in `targets`; a node left out
starts with the reply `failed`, which no decision of the adapter counts. -/
def fanOut (sequencer : Sequencer) (phase : Phase) (targets : List Bool) : Sequencer :=
  { sequencer with
    phase
    serial := sequencer.serial + 1
    replies := targets.map fun target => if target then none else some .failed }

end Sequencer

/-- The messages of a fan-out by `sender` to the nodes marked in `targets`. -/
def fanOutMessages (sender : Nat) (sequencer : Sequencer) (request : Request)
    (targets : List Bool) : List Message :=
  ((List.range targets.length).zip targets).filterMap fun (node, target) =>
    if target then some ⟨sender, sequencer.owner, node, sequencer.serial + 1, request⟩ else none

/-! ## Decoding replies -/

def Reply.ownedBy : Option Reply → Bool
  | some (.isOwner true) => true
  | _ => false

def Reply.promotedToken : Option Reply → Option Nat
  | some (.promoted token) => token
  | _ => none

def Reply.latestRead : Option Reply → Option (Option Nat)
  | some (.latest height) => some height
  | _ => none

def Reply.entriesRead : Option Reply → Option (List StreamEntry)
  | some (.entries read) => some read
  | _ => none

def Reply.writeResult : Option Reply → WriteBlockResult
  | some (.wrote result) => result
  | _ => .failed

/-! ## The nodes' side -/

/-- A node runs a script for the adapter whose owner token is `owner`. -/
def runRequest (config : LeaseConfig) (owner dropped : Nat) (request : Request)
    (node : RedisState) : RedisState × Reply :=
  match request with
  | .checkLeaseOwner => (node, .isOwner (checkLeaseOwner owner node))
  | .promoteLeader =>
      match promoteLeader owner node with
      | (node', .ok token) => (node', .promoted (some token))
      | (node', .error _) => (node', .promoted none)
  | .releaseLock => ((releaseLock owner node).1, .failed)
  | .writeBlock epoch block =>
      match writeBlock epoch owner block.height block config.streamMaxLen dropped node with
      | (node', .ok ()) => (node', .wrote .written)
      | (node', .error .heightExists) => (node', .wrote .heightExists)
      | (node', .error _) => (node', .wrote .fencingRejected)
  | .readLatestStreamEntry => (node, .latest (readLatestStreamEntry node))
  | .readStreamEntries minHeight count => (node, .entries (readStreamEntries minHeight count node))

/-- A publish stops listening once a quorum of nodes wrote the block: replies that
arrive later are abandoned. -/
def Sequencer.listening (config : LeaseConfig) (sequencer : Sequencer) : Bool :=
  match sequencer.phase with
  | .publishing _ | .repairing _ _ _ =>
      !quorumReached config.quorum (writtenCount (sequencer.replies.map Reply.writeResult))
  | _ => true

/-- Record the reply of `node` to fan-out `serial`, if the sequencer still waits for it. -/
def Sequencer.receive (config : LeaseConfig) (sequencer : Sequencer) (serial node : Nat)
    (reply : Reply) : Sequencer :=
  if serial = sequencer.serial ∧ sequencer.replies[node]? = some none ∧
      sequencer.listening config then
    { sequencer with replies := sequencer.replies.set node (some reply) }
  else sequencer

/-! ## The sequencers' side

The code a sequencer runs between two await points only changes the sequencer and
sends messages: it returns the new sequencer together with the messages it sends. -/

namespace Sequencer

/-- Has the awaited fan-out returned: `join_all` waits for every node, a publish
also returns as soon as a quorum of nodes wrote the block. -/
def awaited (config : LeaseConfig) (sequencer : Sequencer) : Bool :=
  sequencer.replies.all Option.isSome || !sequencer.listening config

/-- Send `request` to the marked nodes and wait in `phase`. -/
def send (sequencer : Sequencer) (index : Nat) (phase : Phase) (request : Request)
    (targets : List Bool) : Sequencer × List Message :=
  (sequencer.fanOut phase targets, fanOutMessages index sequencer request targets)

/-- Move to `phase` without sending anything. -/
def settle (sequencer : Sequencer) (phase : Phase) : Sequencer × List Message :=
  ({ sequencer with phase }, [])

/-- `can_produce_block` returned `true`: `unreconciled_blocks` starts with
`should_reconcile_from_stream`, a read on every node. -/
def beginReconciliation (sequencer : Sequencer) (index nodeCount : Nat) :
    Sequencer × List Message :=
  sequencer.send index .readingLatest .readLatestStreamEntry (List.replicate nodeCount true)

/-- Act on where the reconciliation loop stopped: an error makes `leader_state`
fail, no block means `ReconciledLeader`, blocks are imported, and a repair starts
its publish with the adapter's epoch token. -/
def afterReconcileStep (sequencer : Sequencer) (index nodeCount : Nat) :
    ReconcileStep → Sequencer × List Message
  | .finished (.error _) => sequencer.settle .idle
  | .finished (.ok []) => sequencer.settle .leader
  | .finished (.ok blocks) => (sequencer.importBlocks blocks).settle .idle
  | .repair block preExistingCount round =>
      match sequencer.epochToken with
      | none =>
          match stopOrFail round.reconciled .repairError with
          | .error _ => sequencer.settle .idle
          | .ok blocks => (sequencer.importBlocks blocks).settle .idle
      | some epoch =>
          sequencer.send index (.repairing block preExistingCount round) (.writeBlock epoch block)
            (List.replicate nodeCount true)

/-- The code that runs when the awaited fan-out returns. -/
def completePhase (config : LeaseConfig) (sequencer : Sequencer) (index nodeCount : Nat)
    (inTime : Bool) : Option (Sequencer × List Message) :=
  let allNodes := List.replicate nodeCount true
  match sequencer.phase with
  | .idle | .leader => none
  | .checkingOwner =>
      let owned := sequencer.replies.map Reply.ownedBy
      if quorumReached config.quorum (owned.count true) then
        if owned.any (! ·) then
          some (sequencer.send index .expandingLock .promoteLeader (owned.map (! ·)))
        else some (sequencer.beginReconciliation index nodeCount)
      else some (sequencer.send index (.promoting 0) .promoteLeader allNodes)
  | .expandingLock =>
      let adopted := match (sequencer.replies.filterMap Reply.promotedToken).max? with
        | some maxNew => if sequencer.epochToken.getD 0 < maxNew then some maxNew
            else sequencer.epochToken
        | none => sequencer.epochToken
      some ({ sequencer with epochToken := adopted }.beginReconciliation index nodeCount)
  | .promoting attempt =>
      let tokens := sequencer.replies.filterMap Reply.promotedToken
      if quorumReached config.quorum tokens.length && inTime then
        some ({ sequencer with epochToken := tokens.max?.orElse fun _ => sequencer.epochToken }
          |>.beginReconciliation index nodeCount)
      else some (sequencer.send index (.releasing attempt) .releaseLock allNodes)
  | .releasing attempt =>
      if attempt + 1 = config.maxAttempts then some (sequencer.settle .idle)
      else some (sequencer.send index (.promoting (attempt + 1)) .promoteLeader allNodes)
  | .readingLatest =>
      match shouldReconcileFromStream config.quorum sequencer.nextHeight
          (sequencer.replies.map Reply.latestRead) with
      | .error _ => some (sequencer.settle .idle)
      | .ok false => some (sequencer.settle .leader)
      | .ok true =>
          if config.streamMaxLen = 0 then
            -- `read_stream_entries_on_node` answers an empty read without a request.
            some ({ sequencer.fanOut .readingEntries (List.replicate nodeCount false) with
              replies := List.replicate nodeCount (some (.entries [])) }, [])
          else
            some (sequencer.send index .readingEntries
              (.readStreamEntries sequencer.nextHeight config.streamMaxLen) allNodes)
  | .readingEntries =>
      some (sequencer.afterReconcileStep index nodeCount
        (startReconciliation config.quorum config.streamMaxLen sequencer.nextHeight
          (sequencer.replies.map Reply.entriesRead)))
  | .repairing block preExistingCount round =>
      some (sequencer.afterReconcileStep index nodeCount
        (resumeAfterRepair config.quorum round block
          (repairOutcome config.quorum preExistingCount
            (sequencer.replies.map Reply.writeResult))))
  | .publishing block =>
      if publishSucceeded config.quorum (sequencer.replies.map Reply.writeResult) then
        some ({ sequencer with committed := sequencer.committed ++ [block] }.settle .idle)
      else some (sequencer.settle .idle)

/-- `produce_block` and the importer's `commit_result` of the new block: without
an epoch token `publish_produced_block` fails at once, otherwise the block is
published to every node. -/
def produceBlock (sequencer : Sequencer) (index nodeCount blockId : Nat) :
    Sequencer × List Message :=
  let block : SealedBlock := ⟨sequencer.nextHeight, blockId⟩
  match sequencer.epochToken with
  | none => sequencer.settle .idle
  | some epoch =>
      sequencer.send index (.publishing block) (.writeBlock epoch block)
        (List.replicate nodeCount true)

end Sequencer

/-- The cluster with sequencer `index` replaced and `messages` sent. -/
def Cluster.update (cluster : Cluster) (index : Nat) :
    Sequencer × List Message → Cluster
  | (sequencer, messages) =>
      { cluster with
        sequencers := cluster.sequencers.set index sequencer
        network := cluster.network ++ messages }

/-- Every owner token in use: the sequencers', the leases' and those in flight. -/
def Cluster.ownerTokens (cluster : Cluster) : List Nat :=
  cluster.sequencers.map Sequencer.owner ++ cluster.nodes.filterMap RedisState.lease ++
    cluster.network.map Message.owner

/-- One step of the cluster, `none` when the event is not enabled. -/
def Cluster.step (config : LeaseConfig) (cluster : Cluster) : Event → Option Cluster
  | .start index => do
      let sequencer ← cluster.sequencers[index]?
      guard (sequencer.phase = .idle)
      some (cluster.update index (sequencer.send index .checkingOwner .checkLeaseOwner
        (List.replicate cluster.nodes.length true)))
  | .deliver position dropped => do
      let message ← cluster.network[position]?
      let node ← cluster.nodes[message.node]?
      let (node', reply) := runRequest config message.owner dropped message.request node
      let network := cluster.network.eraseIdx position
      let sequencers := match cluster.sequencers[message.sender]? with
        | some sequencer =>
            cluster.sequencers.set message.sender
              (sequencer.receive config message.serial message.node reply)
        | none => cluster.sequencers
      some { nodes := cluster.nodes.set message.node node', sequencers, network }
  | .lose position => do
      guard (position < cluster.network.length)
      some { cluster with network := cluster.network.eraseIdx position }
  | .timeout index node => do
      let sequencer ← cluster.sequencers[index]?
      guard (sequencer.replies[node]? = some none)
      some (cluster.update index
        ({ sequencer with replies := sequencer.replies.set node (some .failed) }, []))
  | .complete index inTime => do
      let sequencer ← cluster.sequencers[index]?
      guard (sequencer.awaited config)
      let outcome ← sequencer.completePhase config index cluster.nodes.length inTime
      some (cluster.update index outcome)
  | .produce index blockId => do
      let sequencer ← cluster.sequencers[index]?
      guard (sequencer.phase = .leader)
      some (cluster.update index (sequencer.produceBlock index cluster.nodes.length blockId))
  | .expire node => do
      let state ← cluster.nodes[node]?
      some { cluster with nodes := cluster.nodes.set node (expireLease state) }
  | .crash index newOwner => do
      let sequencer ← cluster.sequencers[index]?
      guard (newOwner ∉ cluster.ownerTokens)
      some (cluster.update index
        ({ sequencer with
          owner := newOwner, epochToken := none, phase := .idle
          serial := sequencer.serial + 1, replies := [] }, []))

/-- Run a list of events, failing at the first one that is not enabled. -/
def Cluster.run (config : LeaseConfig) : Cluster → List Event → Option Cluster
  | cluster, [] => some cluster
  | cluster, event :: events => (cluster.step config event).bind fun next => next.run config events

/-- `nodeCount` empty nodes and sequencers with owner tokens `0, 1, ..`, each
holding the same genesis block. -/
def Cluster.initial (nodeCount sequencerCount : Nat) (genesis : SealedBlock) : Cluster where
  nodes := List.replicate nodeCount RedisState.empty
  sequencers := (List.range sequencerCount).map fun owner =>
    { owner, committed := [genesis], epochToken := none, phase := .idle, serial := 0,
      replies := [] }
  network := []

/-- The states a run can reach. -/
inductive Reachable (config : LeaseConfig) (start : Cluster) : Cluster → Prop
  | initial : Reachable config start start
  | step {cluster next : Cluster} {event : Event} :
      Reachable config start cluster → cluster.step config event = some next →
      Reachable config start next

/-- NoFork: no two sequencers hold different blocks at the same height. -/
def Cluster.NoFork (cluster : Cluster) : Prop :=
  ∀ first ∈ cluster.sequencers, ∀ second ∈ cluster.sequencers,
    ∀ block ∈ first.committed, ∀ other ∈ second.committed,
      block.height = other.height → block = other

/-- Every node's stream is strictly increasing in height, oldest entry first. -/
def Cluster.StreamsIncreasing (cluster : Cluster) : Prop :=
  ∀ node ∈ cluster.nodes, (node.stream.map StreamEntry.height).Pairwise (· < ·)

instance (cluster : Cluster) : Decidable cluster.NoFork :=
  inferInstanceAs (Decidable (∀ first ∈ cluster.sequencers, ∀ second ∈ cluster.sequencers,
    ∀ block ∈ first.committed, ∀ other ∈ second.committed,
      block.height = other.height → block = other))

instance (cluster : Cluster) : Decidable cluster.StreamsIncreasing :=
  inferInstanceAs (Decidable (∀ node ∈ cluster.nodes,
    (node.stream.map StreamEntry.height).Pairwise (· < ·)))

end FuelCore.Poa
