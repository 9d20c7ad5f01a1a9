import Mathlib.Data.Fintype.Fin
import FuelCore.Poa.Cluster

/-! # Safety of the sequencer cluster

What the lease protocol does guarantee, and where it does not. Epochs never decrease on a
node, and on a stream whose heights increase the `HEIGHT_EXISTS` scan of `write_block.lua` finds
exactly the heights present and `read_latest_stream_entry.lua` returns the highest.

The scan stops at the first entry below the posted height, so it relies on that
order; nothing keeps it. A write the adapter abandoned once a quorum was reached
still runs on its node later, after newer heights were written there, and appends
an older height at the end of the stream. From there the node accepts a second
block at a height it already holds, and reports a newest height below its highest;
`forkTrace` drives three nodes and two sequencers into two different committed
blocks at height 2.
-/

namespace FuelCore.Poa

/-! ## The stream scans on an increasing stream -/

/-- On entries listed newest first with strictly decreasing heights, the scan of
`write_block.lua` reports exactly the heights present. -/
theorem heightExistsScan_iff_of_decreasing {posted : Nat} :
    ∀ {entries : List StreamEntry}, (entries.map StreamEntry.height).Pairwise (· > ·) →
      (heightExistsScan posted entries = true ↔ ∃ entry ∈ entries, entry.height = posted)
  | [], _ => by simp [heightExistsScan]
  | entry :: older, decreasing => by
      rw [List.map_cons, List.pairwise_cons] at decreasing
      have olderBelow : ∀ other ∈ older, other.height < entry.height := fun other member =>
        decreasing.1 other.height (List.mem_map_of_mem member)
      by_cases equal : entry.height = posted
      · simp [heightExistsScan, equal]
      · by_cases below : entry.height < posted
        · -- every older entry is lower still, so none of them is at `posted`
          simp only [heightExistsScan, equal, below, if_false, if_true, Bool.false_eq_true,
            false_iff, List.mem_cons, exists_eq_or_imp, false_or, not_exists, not_and]
          intro other member same
          have := olderBelow other member
          omega
        · simp [heightExistsScan, equal, below, heightExistsScan_iff_of_decreasing decreasing.2]

theorem heightExistsScan_reverse_iff {posted : Nat} {stream : List StreamEntry}
    (increasing : (stream.map StreamEntry.height).Pairwise (· < ·)) :
    heightExistsScan posted stream.reverse = true ↔ ∃ entry ∈ stream, entry.height = posted := by
  have decreasing : (stream.reverse.map StreamEntry.height).Pairwise (· > ·) := by
    rw [List.map_reverse, List.pairwise_reverse]
    exact increasing
  simpa using heightExistsScan_iff_of_decreasing decreasing

theorem le_readLatestStreamEntry {node : RedisState}
    (increasing : (node.stream.map StreamEntry.height).Pairwise (· < ·)) :
    ∀ entry ∈ node.stream, ∃ latest, readLatestStreamEntry node = some latest ∧
      entry.height ≤ latest := by
  intro entry member
  obtain ⟨older, newest, split⟩ : ∃ older newest, node.stream = older ++ [newest] :=
    ⟨_, _, (List.dropLast_append_getLast (List.ne_nil_of_mem member)).symm⟩
  refine ⟨newest.height, by simp [readLatestStreamEntry, split], ?_⟩
  rw [split, List.mem_append, List.mem_singleton] at member
  rcases member with older | rfl
  · rw [split, List.map_append, List.pairwise_append] at increasing
    exact Nat.le_of_lt (increasing.2.2 _ (List.mem_map_of_mem older) _ (by simp))
  · exact le_refl _

/-! ## Epochs never decrease -/

/-- Every node's epoch in `after` is at least its epoch in `before`. -/
def EpochsGrow (before after : Cluster) : Prop :=
  before.nodes.length = after.nodes.length ∧
    ∀ (index : Nat) (node node' : RedisState), before.nodes[index]? = some node →
      after.nodes[index]? = some node' → node.epoch ≤ node'.epoch

theorem EpochsGrow.refl (cluster : Cluster) : EpochsGrow cluster cluster := by
  refine ⟨rfl, fun index node node' found found' => ?_⟩
  rw [found] at found'
  cases found'
  exact le_refl _

theorem EpochsGrow.trans {first second third : Cluster} (early : EpochsGrow first second)
    (late : EpochsGrow second third) : EpochsGrow first third := by
  refine ⟨early.1.trans late.1, fun index node node' found found' => ?_⟩
  have inBounds : index < second.nodes.length := by
    rw [← early.1]
    exact (List.getElem?_eq_some_iff.mp found).1
  obtain ⟨middle, foundMiddle⟩ : ∃ middle, second.nodes[index]? = some middle :=
    ⟨_, List.getElem?_eq_getElem inBounds⟩
  exact (early.2 index node middle found foundMiddle).trans
    (late.2 index middle node' foundMiddle found')

theorem promoteLeader_epoch_le (owner : Nat) (node : RedisState) :
    node.epoch ≤ (promoteLeader owner node).1.epoch := by
  unfold promoteLeader
  split <;> simp

theorem writeBlock_epoch_le (myEpoch owner height : Nat) (data : SealedBlock)
    (maxLen dropped : Nat) (node : RedisState) :
    node.epoch ≤ (writeBlock myEpoch owner height data maxLen dropped node).1.epoch := by
  unfold writeBlock
  dsimp only
  split_ifs <;> simp <;> omega

theorem runRequest_epoch_le (config : LeaseConfig) (owner dropped : Nat) (request : Request)
    (node : RedisState) : node.epoch ≤ (runRequest config owner dropped request node).1.epoch := by
  cases request with
  | promoteLeader =>
      have raised := promoteLeader_epoch_le owner node
      simp only [runRequest]
      split <;> simp_all
  | writeBlock epoch block =>
      have raised := writeBlock_epoch_le epoch owner block.height block config.streamMaxLen
        dropped node
      simp only [runRequest]
      split <;> simp_all
  | releaseLock =>
      simp only [runRequest, releaseLock]
      split <;> simp
  | _ => simp [runRequest]

@[simp] theorem Cluster.update_nodes (cluster : Cluster) (index : Nat)
    (outcome : Sequencer × List Message) : (cluster.update index outcome).nodes = cluster.nodes :=
  rfl

theorem epochsGrow_set {cluster next : Cluster} {position : Nat} {node node' : RedisState}
    (found : cluster.nodes[position]? = some node) (raised : node.epoch ≤ node'.epoch)
    (nodes : next.nodes = cluster.nodes.set position node') : EpochsGrow cluster next := by
  refine ⟨by simp [nodes], fun index before after foundBefore foundAfter => ?_⟩
  rw [nodes, List.getElem?_set] at foundAfter
  by_cases same : position = index
  · subst same
    rw [found] at foundBefore
    cases foundBefore
    simp only [if_true, Option.ite_none_right_eq_some, Option.some.injEq] at foundAfter
    rw [← foundAfter.2]
    exact raised
  · rw [if_neg same, foundBefore] at foundAfter
    cases foundAfter
    exact le_refl _

/-- One step of the cluster never lowers a node's epoch: only `promote_leader.lua`
and the self-healing of `write_block.lua` write it, and both raise it. -/
theorem Cluster.step_epochsGrow {config : LeaseConfig} {cluster next : Cluster} {event : Event}
    (stepped : cluster.step config event = some next) : EpochsGrow cluster next := by
  cases event with
  | deliver position dropped =>
      simp only [Cluster.step, Option.bind_eq_bind, Option.bind_eq_some_iff] at stepped
      obtain ⟨message, _, node, foundNode, stepped⟩ := stepped
      cases stepped
      exact epochsGrow_set foundNode
        (runRequest_epoch_le config message.owner dropped message.request node) rfl
  | expire node =>
      simp only [Cluster.step, Option.bind_eq_bind, Option.bind_eq_some_iff] at stepped
      obtain ⟨state, foundState, stepped⟩ := stepped
      cases stepped
      have unchanged : state.epoch ≤ (expireLease state).epoch := le_refl state.epoch
      exact epochsGrow_set foundState unchanged rfl
  | lose position =>
      simp only [Cluster.step, Option.bind_eq_bind, Option.bind_eq_some_iff] at stepped
      obtain ⟨_, _, stepped⟩ := stepped
      cases stepped
      exact EpochsGrow.refl _
  | _ =>
      -- every other event is a sequencer's: it only changes the sequencer and the network
      simp only [Cluster.step, Option.bind_eq_bind, Option.bind_eq_some_iff] at stepped
      obtain ⟨sequencer, _, stepped⟩ := stepped
      first
        | (obtain ⟨_, _, outcome, _, stepped⟩ := stepped
           cases stepped
           exact EpochsGrow.refl _)
        | (obtain ⟨_, _, stepped⟩ := stepped
           cases stepped
           exact EpochsGrow.refl _)

/-- Along any run, every node's epoch only grows. -/
theorem Reachable.epochsGrow {config : LeaseConfig} {start cluster : Cluster}
    (reached : Reachable config start cluster) : EpochsGrow start cluster := by
  induction reached with
  | initial => exact EpochsGrow.refl start
  | step _ stepped grown => exact grown.trans (Cluster.step_epochsGrow stepped)

/-! ## Where the scan goes wrong -/

/-- The success path of `write_block.lua`: an owner with a fresh epoch whose
height the scan does not find appends its entry, and the epoch becomes its own. -/
theorem writeBlock_written {myEpoch owner height : Nat} {data : SealedBlock}
    {maxLen dropped : Nat} {node : RedisState} (owned : node.lease = some owner)
    (fresh : node.epoch ≤ myEpoch) (notFound : heightExistsScan height node.stream.reverse = false) :
    writeBlock myEpoch owner height data maxLen dropped node =
      ({ lease := node.lease, epoch := myEpoch,
         stream := approximateTrim maxLen dropped (node.stream ++ [⟨height, data, myEpoch⟩]) },
        .ok ()) := by
  unfold writeBlock
  by_cases raised : node.epoch < myEpoch
  · simp [owned, Nat.not_lt.mpr fresh, raised, notFound]
  · have same : node.epoch = myEpoch := by omega
    simp [owned, notFound, ← same]

/-- When the newest entry of a stream is below the posted height, `write_block.lua`
stops its scan at once and writes the block, even if the stream already holds an
entry at that height. -/
theorem writeBlock_accepts_below_newest {myEpoch owner : Nat} {data : SealedBlock}
    {maxLen dropped : Nat} {node : RedisState} {older : List StreamEntry} {newest : StreamEntry}
    (owned : node.lease = some owner) (fresh : node.epoch ≤ myEpoch)
    (stream : node.stream = older ++ [newest]) (below : newest.height < data.height) :
    (writeBlock myEpoch owner data.height data maxLen dropped node).2 = .ok () := by
  have notFound : heightExistsScan data.height node.stream.reverse = false := by
    rw [stream, List.reverse_append]
    simp [heightExistsScan, below, Nat.ne_of_lt below]
  rw [writeBlock_written owned fresh notFound]

theorem writeBlock_breaks_order {myEpoch owner : Nat} {data : SealedBlock} {maxLen : Nat}
    {node : RedisState} {older : List StreamEntry} {newest : StreamEntry}
    (owned : node.lease = some owner) (fresh : node.epoch ≤ myEpoch)
    (stream : node.stream = older ++ [newest])
    (increasing : (node.stream.map StreamEntry.height).Pairwise (· < ·))
    (above : data.height < newest.height)
    (absent : ∀ entry ∈ node.stream, entry.height ≠ data.height)
    (keepsTwo : 2 ≤ maxLen) (dropped : Nat) :
    let written := writeBlock myEpoch owner data.height data maxLen dropped node
    written.2 = .ok () ∧ ¬ (written.1.stream.map StreamEntry.height).Pairwise (· < ·) := by
  have notFound : heightExistsScan data.height node.stream.reverse = false := by
    cases found : heightExistsScan data.height node.stream.reverse
    · rfl
    · obtain ⟨entry, member, same⟩ := (heightExistsScan_reverse_iff increasing).mp found
      exact (absent entry member same).elim
  -- trimming keeps at least two entries: the old newest one and the new one
  obtain ⟨kept, trimmed⟩ : ∃ kept, approximateTrim maxLen dropped
      (node.stream ++ [⟨data.height, data, myEpoch⟩]) =
        kept ++ [newest, ⟨data.height, data, myEpoch⟩] := by
    rw [stream, approximateTrim, List.append_assoc, List.singleton_append]
    have short : min dropped ((older ++ [newest, ⟨data.height, data, myEpoch⟩]).length - maxLen)
        ≤ older.length := by
      simp only [List.length_append, List.length_cons, List.length_nil]
      omega
    exact ⟨_, List.drop_append_of_le_length short⟩
  rw [writeBlock_written owned fresh notFound]
  refine ⟨rfl, fun ordered => ?_⟩
  simp only [trimmed, List.map_append, List.pairwise_append, List.map_cons, List.map_nil,
    List.pairwise_cons, List.mem_cons, List.not_mem_nil, or_false, forall_eq] at ordered
  have : newest.height < data.height := ordered.2.1.1
  omega

/-! ## Runs -/

theorem Reachable.of_run {config : LeaseConfig} {start : Cluster} :
    ∀ {events : List Event} {current cluster : Cluster},
      Reachable config start current → current.run config events = some cluster →
      Reachable config start cluster
  | [], current, cluster, reached, ran => by
      simp only [Cluster.run, Option.some.injEq] at ran
      exact ran ▸ reached
  | event :: events, current, cluster, reached, ran => by
      simp only [Cluster.run, Option.bind_eq_some_iff] at ran
      obtain ⟨next, stepped, rest⟩ := ran
      exact (reached.step stepped).of_run rest

theorem exists_reachable_of_run {config : LeaseConfig} {start : Cluster} (events : List Event)
    {property : Cluster → Prop} [DecidablePred property]
    (ends : (start.run config events).any (fun cluster => decide (property cluster)) = true) :
    ∃ cluster, Reachable config start cluster ∧ property cluster := by
  cases ran : start.run config events with
  | none => simp [ran] at ends
  | some cluster =>
      rw [ran, Option.any_some, decide_eq_true_eq] at ends
      exact ⟨cluster, Reachable.initial.of_run ran, ends⟩

/-! ## A fork with three nodes and two sequencers -/

/-- Three nodes, no disruption budget (quorum two), `stream_max_len` five and one
promotion attempt. -/
def forkConfig : LeaseConfig where
  quorum := calculateQuorum 3 0
  streamMaxLen := 5
  maxAttempts := 1

/-- Three empty nodes and two sequencers holding the genesis block. -/
def forkStart : Cluster :=
  Cluster.initial 3 2 ⟨0, 0⟩

/-- The message at `position` runs, `count` times over. -/
def deliverEach (count position : Nat) : List Event :=
  List.replicate count (.deliver position 0)

/-- Sequencer 0 takes the lease, publishes block 11 at height 1 to nodes 0 and 1
(its write to node 2 is abandoned) and block 12 at height 2 to nodes 0 and 2 (its
write to node 1 is lost), and commits both; then the abandoned write of block 11
runs on node 2, which now holds heights 2 and 1 in that order. -/
def disorderTrace : List Event :=
  -- `has_lease_owner_quorum` fails, `acquire_lease_if_free` promotes on all nodes
  [.start 0] ++ deliverEach 3 0 ++ [.complete 0 true] ++ deliverEach 3 0 ++ [.complete 0 true] ++
  -- no backlog at height 1: produce block 11 and publish it, quorum from nodes 0 and 1
  deliverEach 3 0 ++ [.complete 0 true, .produce 0 11] ++ deliverEach 2 0 ++ [.complete 0 true] ++
  -- next round: still the owner, no backlog at height 2 (node 2 reads an empty stream)
  [.start 0] ++ deliverEach 3 1 ++ [.complete 0 true] ++ deliverEach 3 1 ++ [.complete 0 true] ++
  -- block 12 is written on nodes 0 and 2, the write to node 1 is lost
  [.produce 0 12, .deliver 1 0, .deliver 2 0, .complete 0 true, .lose 1] ++
  -- the abandoned write of block 11 finally runs on node 2
  [.deliver 0 0]

/-- Sequencer 0 crashes and its leases expire; sequencer 1 takes over at height 1.
Node 0 does not answer its stream read, so it reconciles from nodes 1 and 2: block
11 has quorum, block 12 is found once and its repair fails (node 0 answers
`HEIGHT_EXISTS`, nodes 1 and 2 time out). Sequencer 1 commits block 11 only. In its
next round node 0 again does not answer, nodes 1 and 2 report height 1 as their
newest, so there is no backlog at height 2: it produces block 22 there, nodes 1 and 2
write it, and it commits it. -/
def takeoverTrace : List Event :=
  [.crash 0 100, .expire 0, .expire 1, .expire 2] ++
  [.start 1] ++ deliverEach 3 0 ++ [.complete 1 true] ++ deliverEach 3 0 ++ [.complete 1 true] ++
  deliverEach 3 0 ++ [.complete 1 true] ++
  [.timeout 1 0, .deliver 1 0, .deliver 1 0, .lose 0, .complete 1 true] ++
  [.deliver 0 0, .timeout 1 1, .timeout 1 2, .lose 0, .lose 0, .complete 1 true] ++
  [.start 1] ++ deliverEach 3 0 ++ [.complete 1 true] ++
  [.timeout 1 0, .deliver 1 0, .deliver 1 0, .lose 0, .complete 1 true] ++
  [.produce 1 22, .deliver 1 0, .deliver 1 0, .complete 1 true]

/-- The whole run: sequencer 0 ends with block 12 at height 2, sequencer 1 with block 22. -/
def forkTrace : List Event :=
  disorderTrace ++ takeoverTrace

/-- After `disorderTrace`, node 2's stream holds height 2 before height 1. -/
theorem redis_stream_height_order_breaks :
    ∃ cluster, Reachable forkConfig forkStart cluster ∧ ¬ cluster.StreamsIncreasing :=
  exists_reachable_of_run disorderTrace (by decide)

/-- The promotions of `disorderTrace` raise the epochs of the nodes, and no step lowers one. -/
theorem disorder_trace_epochs_grow :
    ∃ cluster, forkStart.run forkConfig disorderTrace = some cluster ∧
      Reachable forkConfig forkStart cluster ∧ EpochsGrow forkStart cluster := by
  have ran : (forkStart.run forkConfig disorderTrace).isSome = true := by decide
  obtain ⟨cluster, ran⟩ := Option.isSome_iff_exists.mp ran
  have reached : Reachable forkConfig forkStart cluster := Reachable.initial.of_run ran
  exact ⟨cluster, ran, reached, Reachable.epochsGrow reached⟩

/-- After `forkTrace`, the two sequencers hold different blocks at height 2. -/
theorem ha_sequencer_commits_fork :
    ∃ cluster, Reachable forkConfig forkStart cluster ∧ ¬ cluster.NoFork :=
  exists_reachable_of_run forkTrace (by decide)

/-! ## Votes per stream entry -/

/-- The nodes whose read holds `block` at `height`, each node counted once. -/
def nodesHolding (height : Nat) (block : SealedBlock) (blocksByNode : List (List StreamEntry)) :
    Nat :=
  blocksByNode.countP fun entries => entries.any fun entry => entry.height == height && entry.data == block

/-- Reads of three nodes at height 5: block 1 on nodes 0 and 1 under epoch 1, block 2 on
node 2 alone, under epochs 2 and 3. -/
def inflatedOrphanReads : List (Option (List StreamEntry)) :=
  [some [⟨5, ⟨5, 1⟩, 1⟩], some [⟨5, ⟨5, 1⟩, 1⟩], some [⟨5, ⟨5, 2⟩, 2⟩, ⟨5, ⟨5, 2⟩, 3⟩]]

/-- The votes count node 2's two entries of block 2 as two copies, and its higher epoch
makes it the winner: reconciliation takes block 2, held by one node, over block 1, held by a
quorum of them. -/
theorem reconciliation_takes_block_of_one_node_over_quorum_block :
    nodesHolding 5 ⟨5, 1⟩ (inflatedOrphanReads.filterMap id) = calculateQuorum 3 0 ∧
      nodesHolding 5 ⟨5, 2⟩ (inflatedOrphanReads.filterMap id) = 1 ∧
      startReconciliation (calculateQuorum 3 0) 10 5 inflatedOrphanReads =
        .finished (.ok [⟨5, 2⟩]) := by
  decide

end FuelCore.Poa
