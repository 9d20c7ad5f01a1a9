import FuelCore.Executor.Types

/-! # When the block producer counts itself synced

`consensus_module/poa/src/sync.rs`: the `SyncTask` tells block production whether the node has
caught up with the network. It follows three streams (the number of connected reserved peers,
the blocks the importer commits, and the ticks of a timer of period `time_until_synced`), keeps
an `InnerSyncState`, and shares a `SyncState` with `MainTask` through a watch channel, which
`ensure_synced` waits on. Each branch of the `select!` in `run` is one event here. The timer
exists only for a nonzero period, and its ticks are events only then; its schedule, which
`restart_timer` resets, is not kept. `MainTask` raises the shared reconciliation watermark with
`fetch_max` before it imports reconciled blocks, which is an event too.

Durations are whole nanoseconds. A header is the executor's `BlockHeader`.
-/

namespace FuelCore.Poa

open FuelCore.Executor (BlockHeader BlockHeight)

inductive SyncState
  | notSynced
  | synced (blockHeader : BlockHeader)
  deriving DecidableEq, Repr

def SyncState.fromConfig (minConnectedReservedPeers timeUntilSynced : ℕ)
    (header : BlockHeader) : SyncState :=
  if minConnectedReservedPeers = 0 ∧ timeUntilSynced = 0 then .synced header else .notSynced

inductive InnerSyncState
  | insufficientPeers (blockHeader : BlockHeader)
  | sufficientPeers (blockHeader : BlockHeader)
  | synced (blockHeader : BlockHeader) (hasSufficientPeers : Bool)
  deriving DecidableEq, Repr

def InnerSyncState.fromConfig (minConnectedReservedPeers timeUntilSynced : ℕ)
    (blockHeader : BlockHeader) : InnerSyncState :=
  match minConnectedReservedPeers, timeUntilSynced with
  | 0, 0 => .synced blockHeader true
  | 0, _ => .sufficientPeers blockHeader
  | _, _ => .insufficientPeers blockHeader

/-- `block_importer::Source`. -/
inductive Source
  | network
  | «local»
  deriving DecidableEq, Repr

structure BlockImportInfo where
  blockHeader : BlockHeader
  source : Source
  deriving DecidableEq, Repr

def BlockImportInfo.isLocallyProduced (blockInfo : BlockImportInfo) : Bool :=
  blockInfo.source == .local

/-- `SyncTask`, with the value its watch channel holds as `stateSender` and the timer's period
when there is a timer. -/
structure SyncTask where
  minConnectedReservedPeers : ℕ
  stateSender : SyncState
  innerState : InnerSyncState
  timer : Option ℕ
  reconciliationWatermark : UInt32
  deriving DecidableEq, Repr

def SyncTask.new (minConnectedReservedPeers timeUntilSynced : ℕ) (blockHeader : BlockHeader)
    (reconciliationWatermark : UInt32) : SyncTask where
  minConnectedReservedPeers
  stateSender := SyncState.fromConfig minConnectedReservedPeers timeUntilSynced blockHeader
  innerState := InnerSyncState.fromConfig minConnectedReservedPeers timeUntilSynced blockHeader
  timer := if timeUntilSynced = 0 then none else some timeUntilSynced
  reconciliationWatermark

/-- `update_sync_state`: `send_if_modified` stores the new state when it differs, so the channel
holds it either way; only the notification depends on the difference. -/
def SyncTask.updateSyncState (task : SyncTask) (newState : SyncState) : SyncTask :=
  { task with stateSender := newState }

/-- What one turn of `run` handles: a branch of its `select!`, or `MainTask`'s `fetch_max`. -/
inductive SyncEvent
  | peerConnections (latestPeerCount : ℕ)
  | blockImported (blockInfo : BlockImportInfo)
  | tick
  | watermarkRaised (height : UInt32)
  deriving DecidableEq, Repr

/-- One turn of `run`. -/
def SyncTask.run (task : SyncTask) : SyncEvent → SyncTask
  | .peerConnections latestPeerCount =>
      let sufficientPeers := decide (task.minConnectedReservedPeers ≤ latestPeerCount)
      match task.innerState with
      | .insufficientPeers blockHeader =>
          if sufficientPeers then { task with innerState := .sufficientPeers blockHeader }
          else task
      | .sufficientPeers blockHeader =>
          if !sufficientPeers then { task with innerState := .insufficientPeers blockHeader }
          else task
      | .synced blockHeader _ => { task with innerState := .synced blockHeader sufficientPeers }
  | .blockImported blockInfo =>
      let newBlockHeight := blockInfo.blockHeader.height
      match task.innerState with
      | .insufficientPeers blockHeader =>
          if newBlockHeight > blockHeader.height then
            { task with innerState := .insufficientPeers blockInfo.blockHeader }
          else task
      | .sufficientPeers blockHeader =>
          if newBlockHeight > blockHeader.height then
            { task with innerState := .sufficientPeers blockInfo.blockHeader }
          else task
      | .synced blockHeader hasSufficientPeers =>
          if newBlockHeight > blockHeader.height then
            let watermark := task.reconciliationWatermark
            let isReconciliation := decide (watermark > 0) && decide (newBlockHeight ≤ watermark)
            if blockInfo.isLocallyProduced || isReconciliation then
              { task with innerState := .synced blockInfo.blockHeader hasSufficientPeers }.updateSyncState
                (.synced blockInfo.blockHeader)
            else
              -- synced, yet the network has a higher block
              { task with
                innerState := if hasSufficientPeers then .sufficientPeers blockInfo.blockHeader
                  else .insufficientPeers blockInfo.blockHeader }.updateSyncState .notSynced
          else task
  | .tick =>
      match task.timer, task.innerState with
      | some _, .sufficientPeers blockHeader =>
          { task with innerState := .synced blockHeader true }.updateSyncState (.synced blockHeader)
      | _, _ => task
  | .watermarkRaised height =>
      { task with reconciliationWatermark := max task.reconciliationWatermark height }

/-- The task after the events, one turn each. -/
def SyncTask.runAll (task : SyncTask) (events : List SyncEvent) : SyncTask :=
  events.foldl SyncTask.run task

/-! ## What the task has seen -/

namespace InnerSyncState

def blockHeader : InnerSyncState → BlockHeader
  | .insufficientPeers blockHeader | .sufficientPeers blockHeader | .synced blockHeader _ =>
      blockHeader

def hasSufficientPeers : InnerSyncState → Bool
  | .insufficientPeers _ => false
  | .sufficientPeers _ => true
  | .synced _ hasSufficientPeers => hasSufficientPeers

/-- The shared state that stands for an inner state. -/
def syncState : InnerSyncState → SyncState
  | .synced blockHeader _ => .synced blockHeader
  | _ => .notSynced

def isSynced : InnerSyncState → Bool
  | .synced _ _ => true
  | _ => false

theorem syncState_of_not_isSynced {innerState : InnerSyncState}
    (notSynced : innerState.isSynced = false) : innerState.syncState = .notSynced := by
  cases innerState with
  | synced => cases notSynced
  | insufficientPeers | sufficientPeers => rfl

end InnerSyncState

namespace SyncEvent

/-- The last peer count reported, after the event. -/
def lastPeerCount (lastPeerCount : ℕ) : SyncEvent → ℕ
  | .peerConnections latestPeerCount => latestPeerCount
  | _ => lastPeerCount

/-- The highest block height seen, after the event. -/
def highestHeight (highestHeight : ℕ) : SyncEvent → ℕ
  | .blockImported blockInfo => max highestHeight blockInfo.blockHeader.height.toNat
  | _ => highestHeight

end SyncEvent

/-- The shared state mirrors the inner state; the inner state says whether the last peer report
reached the minimum, and holds the header of the highest block seen. -/
structure SyncTask.Tracks (task : SyncTask) (lastPeerCount highestHeight : ℕ) : Prop where
  mirrors : task.stateSender = task.innerState.syncState
  peers : task.innerState.hasSufficientPeers =
    decide (task.minConnectedReservedPeers ≤ lastPeerCount)
  highest : task.innerState.blockHeader.height.toNat = highestHeight


theorem SyncTask.tracks_new (minConnectedReservedPeers timeUntilSynced : ℕ)
    (blockHeader : BlockHeader) (reconciliationWatermark : UInt32) :
    (SyncTask.new minConnectedReservedPeers timeUntilSynced blockHeader
      reconciliationWatermark).Tracks 0 blockHeader.height.toNat := by
  cases minConnectedReservedPeers <;> cases timeUntilSynced <;> constructor <;>
    simp [SyncTask.new, SyncState.fromConfig, InnerSyncState.fromConfig, InnerSyncState.syncState,
      InnerSyncState.hasSufficientPeers, InnerSyncState.blockHeader]

namespace SyncTask

variable {task : SyncTask}

variable {lastPeerCount highestHeight : ℕ}

theorem Tracks.peerConnections (tracks : task.Tracks lastPeerCount highestHeight)
    (latestPeerCount : ℕ) :
    (task.run (.peerConnections latestPeerCount)).Tracks latestPeerCount highestHeight := by
  obtain ⟨mirrors, -, highest⟩ := tracks
  by_cases sufficient : task.minConnectedReservedPeers ≤ latestPeerCount <;>
    cases inner : task.innerState <;>
    simp only [inner, InnerSyncState.syncState, InnerSyncState.blockHeader] at mirrors highest <;>
    constructor <;>
    simp [SyncTask.run, inner, sufficient, mirrors, highest, InnerSyncState.syncState,
      InnerSyncState.hasSufficientPeers, InnerSyncState.blockHeader]

theorem Tracks.blockImported (tracks : task.Tracks lastPeerCount highestHeight)
    (blockInfo : BlockImportInfo) :
    (task.run (.blockImported blockInfo)).Tracks lastPeerCount
      (max highestHeight blockInfo.blockHeader.height.toNat) := by
  obtain ⟨mirrors, peers, highest⟩ := tracks
  by_cases higher : task.innerState.blockHeader.height < blockInfo.blockHeader.height
  · -- the block is the highest seen, and its header replaces the inner one
    have newHighest : max highestHeight blockInfo.blockHeader.height.toNat =
        blockInfo.blockHeader.height.toNat := by
      rw [UInt32.lt_iff_toNat_lt, highest] at higher
      omega
    rw [newHighest]
    cases inner : task.innerState with
    | insufficientPeers blockHeader | sufficientPeers blockHeader =>
        simp only [inner, InnerSyncState.blockHeader] at higher
        constructor <;> simp_all [SyncTask.run, InnerSyncState.syncState, InnerSyncState.hasSufficientPeers,
          InnerSyncState.blockHeader]
    | synced blockHeader hasSufficientPeers =>
        simp only [inner, InnerSyncState.blockHeader] at higher peers
        by_cases kept : (blockInfo.isLocallyProduced || (decide (task.reconciliationWatermark > 0) &&
            decide (blockInfo.blockHeader.height ≤ task.reconciliationWatermark))) = true
        · -- a locally produced or reconciled block: still synced, at the new header
          have step : task.run (.blockImported blockInfo) =
              { task with
                innerState := .synced blockInfo.blockHeader hasSufficientPeers
                stateSender := .synced blockInfo.blockHeader } := by
            simp only [SyncTask.run, inner, gt_iff_lt, higher, if_true, kept]
            rfl
          rw [step]
          exact ⟨rfl, peers, rfl⟩
        · -- a higher block from the network: not synced any more
          have step : task.run (.blockImported blockInfo) =
              { task with
                innerState := if hasSufficientPeers then .sufficientPeers blockInfo.blockHeader
                  else .insufficientPeers blockInfo.blockHeader
                stateSender := .notSynced } := by
            simp only [SyncTask.run, inner, gt_iff_lt, higher, if_true, kept, Bool.false_eq_true,
              if_false]
            rfl
          rw [step]
          cases hasSufficientPeers <;> exact ⟨rfl, peers, rfl⟩
  · -- a block no higher than the header leaves the task as it was
    have sameHighest : max highestHeight blockInfo.blockHeader.height.toNat = highestHeight := by
      rw [UInt32.lt_iff_toNat_lt, highest] at higher
      omega
    have unchanged : task.run (.blockImported blockInfo) = task := by
      cases inner : task.innerState <;> rw [inner] at higher <;>
        simp_all [SyncTask.run, InnerSyncState.blockHeader]
    rw [sameHighest, unchanged]
    exact ⟨mirrors, peers, highest⟩

theorem Tracks.tick (tracks : task.Tracks lastPeerCount highestHeight) :
    (task.run .tick).Tracks lastPeerCount highestHeight := by
  obtain ⟨mirrors, peers, highest⟩ := tracks
  -- only a tick of an existing timer in `SufficientPeers` changes the task
  cases timer : task.timer <;> cases inner : task.innerState <;> constructor <;>
    simp_all [SyncTask.run, SyncTask.updateSyncState, InnerSyncState.syncState,
      InnerSyncState.hasSufficientPeers, InnerSyncState.blockHeader]

theorem Tracks.run (tracks : task.Tracks lastPeerCount highestHeight) (event : SyncEvent) :
    (task.run event).Tracks (event.lastPeerCount lastPeerCount) (event.highestHeight highestHeight) := by
  cases event with
  | peerConnections latestPeerCount => exact tracks.peerConnections latestPeerCount
  | blockImported blockInfo => exact tracks.blockImported blockInfo
  | tick => exact tracks.tick
  | watermarkRaised height => exact ⟨tracks.mirrors, tracks.peers, tracks.highest⟩

theorem Tracks.runAll (tracks : task.Tracks lastPeerCount highestHeight) (events : List SyncEvent) :
    (task.runAll events).Tracks (events.foldl SyncEvent.lastPeerCount lastPeerCount)
      (events.foldl SyncEvent.highestHeight highestHeight) := by
  induction events generalizing task lastPeerCount highestHeight with
  | nil => exact tracks
  | cons event events induction => exact induction (tracks.run event)

theorem run_not_isSynced (noTimer : task.timer = none)
    (notSynced : task.innerState.isSynced = false) (event : SyncEvent) :
    (task.run event).timer = none ∧ (task.run event).innerState.isSynced = false := by
  cases inner : task.innerState with
  | synced => simp [inner, InnerSyncState.isSynced] at notSynced
  | insufficientPeers blockHeader | sufficientPeers blockHeader =>
      cases event <;> simp only [SyncTask.run, inner, noTimer] <;> (try split_ifs) <;>
        simp [inner, noTimer, InnerSyncState.isSynced]

theorem runAll_not_isSynced (noTimer : task.timer = none)
    (notSynced : task.innerState.isSynced = false) (events : List SyncEvent) :
    (task.runAll events).innerState.isSynced = false := by
  induction events generalizing task with
  | nil => exact notSynced
  | cons event events induction =>
      obtain ⟨noTimer', notSynced'⟩ := run_not_isSynced noTimer notSynced event
      exact induction noTimer' notSynced'

/-- A synced task whose shared state mirrors its inner state stops being synced only on a
block from the network, higher than its header, that the watermark does not cover. -/
theorem leaves_synced (mirrors : task.stateSender = task.innerState.syncState)
    {blockHeader : BlockHeader} (synced : task.stateSender = .synced blockHeader)
    {event : SyncEvent} (leaves : (task.run event).stateSender = .notSynced) :
    ∃ blockInfo, event = .blockImported blockInfo ∧ blockInfo.source = .network ∧
      blockHeader.height < blockInfo.blockHeader.height ∧
      (task.reconciliationWatermark = 0 ∨
        task.reconciliationWatermark < blockInfo.blockHeader.height) := by
  obtain ⟨hasSufficientPeers, inner⟩ :
      ∃ hasSufficientPeers, task.innerState = .synced blockHeader hasSufficientPeers := by
    cases inner : task.innerState with
    | synced header hasSufficientPeers =>
        rw [synced, inner] at mirrors
        cases mirrors
        exact ⟨hasSufficientPeers, rfl⟩
    | insufficientPeers | sufficientPeers =>
        rw [synced, inner] at mirrors
        cases mirrors
  cases event with
  | peerConnections latestPeerCount => simp [SyncTask.run, inner, synced] at leaves
  | tick => cases timer : task.timer <;> simp [SyncTask.run, inner, synced, timer] at leaves
  | watermarkRaised height => simp [SyncTask.run, synced] at leaves
  | blockImported blockInfo =>
      refine ⟨blockInfo, rfl, ?_⟩
      by_cases higher : blockHeader.height < blockInfo.blockHeader.height
      · by_cases kept : (blockInfo.isLocallyProduced || (decide (task.reconciliationWatermark > 0) &&
            decide (blockInfo.blockHeader.height ≤ task.reconciliationWatermark))) = true
        · simp only [SyncTask.run, inner, gt_iff_lt, higher, if_true, kept] at leaves
          cases leaves
        · -- neither produced here nor covered by the watermark
          simp only [Bool.or_eq_true, Bool.and_eq_true, decide_eq_true_eq, not_or, not_and,
            BlockImportInfo.isLocallyProduced, beq_iff_eq] at kept
          obtain ⟨notLocal, notCovered⟩ := kept
          refine ⟨?_, higher, ?_⟩
          · cases source : blockInfo.source
            · rfl
            · exact absurd source notLocal
          · rw [gt_iff_lt, UInt32.lt_iff_toNat_lt, UInt32.le_iff_toNat_le, UInt32.toNat_zero]
              at notCovered
            rw [UInt32.lt_iff_toNat_lt]
            have zero : task.reconciliationWatermark = 0 ↔ task.reconciliationWatermark.toNat = 0 := by
              rw [← UInt32.toNat_inj]
              rfl
            rw [zero]
            omega
      · simp only [SyncTask.run, inner, gt_iff_lt, higher, if_false, synced] at leaves
        cases leaves

end SyncTask

/-- From `SyncTask::new`, after any events, the shared state mirrors the inner state, whose peer
flag says whether the last peer report reached `min_connected_reserved_peers`, and whose header
is that of the highest block seen. -/
theorem sync_task_follows_peers_and_highest_block (minConnectedReservedPeers timeUntilSynced : ℕ)
    (blockHeader : BlockHeader) (reconciliationWatermark : UInt32) (events : List SyncEvent) :
    ((SyncTask.new minConnectedReservedPeers timeUntilSynced blockHeader
        reconciliationWatermark).runAll events).Tracks
      (events.foldl SyncEvent.lastPeerCount 0)
      (events.foldl SyncEvent.highestHeight blockHeader.height.toNat) :=
  (SyncTask.tracks_new _ _ _ _).runAll events

/-- A header at a height, of a block with nothing in it. -/
def emptyHeader (height : BlockHeight) : BlockHeader :=
  ⟨height, 0, 0, 0, 0, [], [], 0⟩

/-- With a positive `min_connected_reserved_peers` and a zero `time_until_synced`, the task has
no timer and starts with insufficient peers: whatever peers and blocks it sees, it never reports
`Synced`, so `ensure_synced` waits for ever. -/
theorem sync_task_without_timer_never_syncs (minConnectedReservedPeers : ℕ)
    (positive : 0 < minConnectedReservedPeers) (blockHeader : BlockHeader)
    (reconciliationWatermark : UInt32) (events : List SyncEvent) :
    ((SyncTask.new minConnectedReservedPeers 0 blockHeader reconciliationWatermark).runAll
      events).stateSender = .notSynced := by
  have tracks := (SyncTask.tracks_new minConnectedReservedPeers 0 blockHeader
    reconciliationWatermark).runAll events
  have notSynced : (SyncTask.new minConnectedReservedPeers 0 blockHeader
      reconciliationWatermark).innerState.isSynced = false := by
    cases minConnectedReservedPeers with
    | zero => cases positive
    | succ => rfl
  rw [tracks.mirrors]
  exact InnerSyncState.syncState_of_not_isSynced (SyncTask.runAll_not_isSynced rfl notSynced events)

theorem reserved_peer_without_timer_never_syncs :
    0 < 1 ∧ ((SyncTask.new 1 0 (emptyHeader 5) 0).runAll
      [.peerConnections 3, .tick, .blockImported ⟨emptyHeader 6, .network⟩, .tick]).stateSender =
        .notSynced :=
  ⟨by decide, sync_task_without_timer_never_syncs 1 (by decide) _ _ _⟩

/-- A task that `SyncTask::new` and turns of `run` lead to. -/
def SyncTask.Reachable (task : SyncTask) : Prop :=
  ∃ minConnectedReservedPeers timeUntilSynced blockHeader reconciliationWatermark events,
    task = (SyncTask.new minConnectedReservedPeers timeUntilSynced blockHeader
      reconciliationWatermark).runAll events

/-- A reachable task that reports `Synced` stops only on a block from the network, higher than
its header, that the reconciliation watermark does not cover: a block the leader reconciled
under the watermark, or one it produced, keeps it synced. -/
theorem synced_task_leaves_synced_only_for_uncovered_network_block {task : SyncTask}
    (reachable : task.Reachable) {blockHeader : BlockHeader} {event : SyncEvent}
    (synced : task.stateSender = .synced blockHeader)
    (leaves : (task.run event).stateSender = .notSynced) :
    ∃ blockInfo, event = .blockImported blockInfo ∧ blockInfo.source = .network ∧
      blockHeader.height < blockInfo.blockHeader.height ∧
      (task.reconciliationWatermark = 0 ∨
        task.reconciliationWatermark < blockInfo.blockHeader.height) := by
  obtain ⟨minConnectedReservedPeers, timeUntilSynced, header, reconciliationWatermark, events,
    rfl⟩ := reachable
  exact SyncTask.leaves_synced ((SyncTask.tracks_new _ _ _ _).runAll events).mirrors synced leaves

theorem network_block_unsyncs_fresh_task :
    (SyncTask.new 0 0 (emptyHeader 5) 0).Reachable ∧
      (SyncTask.new 0 0 (emptyHeader 5) 0).stateSender = .synced (emptyHeader 5) ∧
      ((SyncTask.new 0 0 (emptyHeader 5) 0).run
        (.blockImported ⟨emptyHeader 6, .network⟩)).stateSender = .notSynced ∧
      ∃ blockInfo, SyncEvent.blockImported ⟨emptyHeader 6, .network⟩ = .blockImported blockInfo ∧
        blockInfo.source = .network ∧ (emptyHeader 5).height < blockInfo.blockHeader.height ∧
        ((SyncTask.new 0 0 (emptyHeader 5) 0).reconciliationWatermark = 0 ∨
          (SyncTask.new 0 0 (emptyHeader 5) 0).reconciliationWatermark <
            blockInfo.blockHeader.height) := by
  have reachable : (SyncTask.new 0 0 (emptyHeader 5) 0).Reachable := ⟨0, 0, emptyHeader 5, 0, [], rfl⟩
  have synced : (SyncTask.new 0 0 (emptyHeader 5) 0).stateSender = .synced (emptyHeader 5) := by
    decide
  have leaves : ((SyncTask.new 0 0 (emptyHeader 5) 0).run
      (.blockImported ⟨emptyHeader 6, .network⟩)).stateSender = .notSynced := by
    decide
  exact ⟨reachable, synced, leaves,
    synced_task_leaves_synced_only_for_uncovered_network_block reachable synced leaves⟩

end FuelCore.Poa
