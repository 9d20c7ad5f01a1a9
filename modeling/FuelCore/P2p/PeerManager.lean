import Mathlib.Data.Finset.Card

/-! # The peer manager's connection slots

`peer_manager.rs` and `connection_tracker.rs`. The `PeerManager` keeps the connected peers in
two tables, reserved and non-reserved, and writes into a `ConnectionState` whether a new
non-reserved peer may connect; the transport's `ConnectionTracker` reads that state in
`allow_peer` when a connection is upgraded, inbound or outbound.

The tables' `PeerInfo`s are not read here, so a table is the set of its keys. The peer manager
is the one writer of the state's `SeqLock`, so a read sees the state of its last write. The
values `send_reserved_peers_update` broadcasts are kept in order. -/

namespace FuelCore.P2p

structure ConnectionState where
  peersAllowed : Bool
  deriving DecidableEq, Repr

namespace ConnectionState

/-- The state `ConnectionState::new` puts under the lock. -/
def new : ConnectionState :=
  ⟨true⟩

def availableSlot (state : ConnectionState) : Bool :=
  state.peersAllowed

def allowNewPeers (_ : ConnectionState) : ConnectionState :=
  ⟨true⟩

def denyNewPeers (_ : ConnectionState) : ConnectionState :=
  ⟨false⟩

end ConnectionState

variable {PeerId : Type} [DecidableEq PeerId]

/-- `PeerManager`: the keys of its two tables, the reserved peers, the state it writes, the
number of non-reserved slots and what it sent on `reserved_peers_updates`. -/
structure PeerManager (PeerId : Type) where
  nonReservedConnectedPeers : Finset PeerId
  reservedConnectedPeers : Finset PeerId
  reservedPeers : Finset PeerId
  connectionState : ConnectionState
  maxNonReservedPeers : ℕ
  reservedPeersUpdates : List ℕ

namespace PeerManager

def new (reservedPeers : Finset PeerId) (maxNonReservedPeers : ℕ) : PeerManager PeerId :=
  ⟨∅, ∅, reservedPeers, .new, maxNonReservedPeers, []⟩

def sendReservedPeersUpdate (peerManager : PeerManager PeerId) : PeerManager PeerId :=
  { peerManager with
    reservedPeersUpdates :=
      peerManager.reservedPeersUpdates ++ [peerManager.reservedConnectedPeers.card] }

/-- `handle_initial_connection`, with whether the peer should be disconnected. -/
def handleInitialConnection (peerManager : PeerManager PeerId) (peerId : PeerId) :
    PeerManager PeerId × Bool :=
  let isReserved : Bool := peerId ∈ peerManager.reservedPeers
  if !isReserved && peerId ∉ peerManager.nonReservedConnectedPeers then
    let nonReservedPeersConnected := peerManager.nonReservedConnectedPeers.card
    -- all the slots are taken: disconnect the peer
    if nonReservedPeersConnected ≥ peerManager.maxNonReservedPeers then (peerManager, true)
    else
      -- the last non-reserved peer allowed
      let peerManager :=
        if nonReservedPeersConnected + 1 = peerManager.maxNonReservedPeers then
          { peerManager with connectionState := peerManager.connectionState.denyNewPeers }
        else peerManager
      ({ peerManager with
          nonReservedConnectedPeers := insert peerId peerManager.nonReservedConnectedPeers },
        false)
  else if isReserved && peerId ∉ peerManager.reservedConnectedPeers then
    ({ peerManager with
        reservedConnectedPeers := insert peerId peerManager.reservedConnectedPeers }
      |>.sendReservedPeersUpdate, false)
  else (peerManager, false)

/-- `handle_peer_connected`. -/
def handlePeerConnected (peerManager : PeerManager PeerId) (peerId : PeerId) :
    PeerManager PeerId × Bool :=
  peerManager.handleInitialConnection peerId

/-- `handle_peer_disconnect`, with whether to reconnect. -/
def handlePeerDisconnect (peerManager : PeerManager PeerId) (peerId : PeerId) :
    PeerManager PeerId × Bool :=
  let isReserved : Bool := peerId ∈ peerManager.reservedPeers
  if !isReserved then
    -- "were all the slots taken prior to this disconnect", counted before the removal
    let allSlotsTaken :=
      peerManager.maxNonReservedPeers = peerManager.nonReservedConnectedPeers.card + 1
    if peerId ∈ peerManager.nonReservedConnectedPeers then
      let peerManager :=
        { peerManager with
          nonReservedConnectedPeers := peerManager.nonReservedConnectedPeers.erase peerId }
      if allSlotsTaken then
        ({ peerManager with connectionState := peerManager.connectionState.allowNewPeers },
          false)
      else (peerManager, false)
    else (peerManager, false)
  else if peerId ∈ peerManager.reservedConnectedPeers then
    ({ peerManager with
        reservedConnectedPeers := peerManager.reservedConnectedPeers.erase peerId }
      |>.sendReservedPeersUpdate, true)
  else (peerManager, false)

end PeerManager

/-- `ConnectionTracker`: the reserved nodes, and the reader of the state, absent in
reserved-nodes-only mode. -/
structure ConnectionTracker (PeerId : Type) where
  reservedNodes : Finset PeerId
  connectionState : Option ConnectionState

def ConnectionTracker.allowPeer (tracker : ConnectionTracker PeerId) (peerId : PeerId) : Bool :=
  if peerId ∈ tracker.reservedNodes then true
  else
    match tracker.connectionState with
    | some connectionState => connectionState.availableSlot
    | none => false

/-- The peer events the service hands to the peer manager. -/
inductive PeerEvent (PeerId : Type)
  | connected (peerId : PeerId)
  | disconnected (peerId : PeerId)

namespace PeerManager

def apply (peerManager : PeerManager PeerId) : PeerEvent PeerId → PeerManager PeerId
  | .connected peerId => (peerManager.handlePeerConnected peerId).1
  | .disconnected peerId => (peerManager.handlePeerDisconnect peerId).1

def run (peerManager : PeerManager PeerId) (events : List (PeerEvent PeerId)) :
    PeerManager PeerId :=
  events.foldl apply peerManager

/-- The tracker of the transport, reading the peer manager's state; the reserved nodes of the
configuration are the peer manager's reserved peers. -/
def tracker (peerManager : PeerManager PeerId) : ConnectionTracker PeerId :=
  ⟨peerManager.reservedPeers, some peerManager.connectionState⟩

/-- A connection attempt: the upgrade asks `allow_peer`, and a peer it lets through is
connected. A disconnection reaches the peer manager as it is. -/
def applyTracked (peerManager : PeerManager PeerId) : PeerEvent PeerId → PeerManager PeerId
  | .connected peerId =>
      if peerManager.tracker.allowPeer peerId then peerManager.apply (.connected peerId)
      else peerManager
  | .disconnected peerId => peerManager.apply (.disconnected peerId)

def runTracked (peerManager : PeerManager PeerId) (events : List (PeerEvent PeerId)) :
    PeerManager PeerId :=
  events.foldl applyTracked peerManager

/-! ## What a call can do -/

variable (peerManager : PeerManager PeerId) (peerId : PeerId)

/-- A connection is refused, changes nothing, adds a non-reserved peer below the limit (and
closes the slots when it takes the last one), or adds a reserved peer. -/
theorem handlePeerConnected_cases :
    let next := peerManager.handlePeerConnected peerId
    (next.1.nonReservedConnectedPeers = peerManager.nonReservedConnectedPeers ∧
        next.1.reservedConnectedPeers = peerManager.reservedConnectedPeers ∧
        next.1.connectionState = peerManager.connectionState ∧
        (next.2 = true ↔ peerId ∉ peerManager.reservedPeers ∧
          peerId ∉ peerManager.nonReservedConnectedPeers ∧
          peerManager.maxNonReservedPeers ≤ peerManager.nonReservedConnectedPeers.card)) ∨
      (peerId ∉ peerManager.reservedPeers ∧ peerId ∉ peerManager.nonReservedConnectedPeers ∧
        peerManager.nonReservedConnectedPeers.card < peerManager.maxNonReservedPeers ∧
        next.1.nonReservedConnectedPeers = insert peerId peerManager.nonReservedConnectedPeers ∧
        next.1.reservedConnectedPeers = peerManager.reservedConnectedPeers ∧
        next.1.connectionState =
          (if peerManager.nonReservedConnectedPeers.card + 1 = peerManager.maxNonReservedPeers
            then peerManager.connectionState.denyNewPeers else peerManager.connectionState) ∧
        next.2 = false) ∨
      (peerId ∈ peerManager.reservedPeers ∧
        next.1.nonReservedConnectedPeers = peerManager.nonReservedConnectedPeers ∧
        next.1.reservedConnectedPeers = insert peerId peerManager.reservedConnectedPeers ∧
        next.1.connectionState = peerManager.connectionState ∧ next.2 = false) := by
  simp only [handlePeerConnected, handleInitialConnection]
  by_cases reserved : peerId ∈ peerManager.reservedPeers
  · by_cases connected : peerId ∈ peerManager.reservedConnectedPeers
    · left
      simp [reserved, connected]
    · right; right
      simp [reserved, connected, sendReservedPeersUpdate]
  · by_cases connected : peerId ∈ peerManager.nonReservedConnectedPeers
    · left
      simp [reserved, connected]
    · by_cases full : peerManager.maxNonReservedPeers ≤ peerManager.nonReservedConnectedPeers.card
      · left
        simp [reserved, connected, full]
      · right; left
        refine ⟨reserved, connected, Nat.lt_of_not_le full, ?_⟩
        split_ifs <;> simp_all

/-- A disconnection removes a connected non-reserved peer, and opens the slots when the table
held one peer fewer than the limit before; it removes a connected reserved peer; otherwise it
changes nothing. -/
theorem handlePeerDisconnect_cases :
    let next := peerManager.handlePeerDisconnect peerId
    (next.1.nonReservedConnectedPeers = peerManager.nonReservedConnectedPeers ∧
        next.1.reservedConnectedPeers = peerManager.reservedConnectedPeers ∧
        next.1.connectionState = peerManager.connectionState) ∨
      (peerId ∉ peerManager.reservedPeers ∧ peerId ∈ peerManager.nonReservedConnectedPeers ∧
        next.1.nonReservedConnectedPeers = peerManager.nonReservedConnectedPeers.erase peerId ∧
        next.1.reservedConnectedPeers = peerManager.reservedConnectedPeers ∧
        next.1.connectionState =
          (if peerManager.maxNonReservedPeers = peerManager.nonReservedConnectedPeers.card + 1
            then peerManager.connectionState.allowNewPeers else peerManager.connectionState)) ∨
      (peerId ∈ peerManager.reservedPeers ∧
        next.1.nonReservedConnectedPeers = peerManager.nonReservedConnectedPeers ∧
        next.1.reservedConnectedPeers = peerManager.reservedConnectedPeers.erase peerId ∧
        next.1.connectionState = peerManager.connectionState) := by
  simp only [handlePeerDisconnect]
  by_cases reserved : peerId ∈ peerManager.reservedPeers
  · by_cases connected : peerId ∈ peerManager.reservedConnectedPeers
    · right; right
      simp [reserved, connected, sendReservedPeersUpdate]
    · left
      simp [reserved, connected]
  · by_cases connected : peerId ∈ peerManager.nonReservedConnectedPeers
    · right; left
      refine ⟨reserved, connected, ?_⟩
      split_ifs <;> simp_all
    · left
      simp [reserved, connected]

@[simp] theorem reservedPeers_apply (event : PeerEvent PeerId) :
    (peerManager.apply event).reservedPeers = peerManager.reservedPeers := by
  cases event <;>
    simp only [apply, handlePeerConnected, handleInitialConnection, handlePeerDisconnect] <;>
    split_ifs <;> rfl

@[simp] theorem maxNonReservedPeers_apply (event : PeerEvent PeerId) :
    (peerManager.apply event).maxNonReservedPeers = peerManager.maxNonReservedPeers := by
  cases event <;>
    simp only [apply, handlePeerConnected, handleInitialConnection, handlePeerDisconnect] <;>
    split_ifs <;> rfl

/-! ## The slots

What the peer manager keeps between calls: the non-reserved table within its limit, each table
to its own kind of peer, and an open slot announced only while the table has room. The
converse of the last, a table with room announces an open slot, is what `handle_peer_disconnect`
fails to keep. -/

/-- The invariant of the slots. -/
structure Slots (peerManager : PeerManager PeerId) : Prop where
  bounded : peerManager.nonReservedConnectedPeers.card ≤ peerManager.maxNonReservedPeers
  reservedOnly : peerManager.reservedConnectedPeers ⊆ peerManager.reservedPeers
  noneReserved : Disjoint peerManager.nonReservedConnectedPeers peerManager.reservedPeers
  openBelowLimit : peerManager.connectionState.availableSlot = true →
    peerManager.nonReservedConnectedPeers.card < peerManager.maxNonReservedPeers

omit [DecidableEq PeerId] in
theorem slots_new (reservedPeers : Finset PeerId) {maxNonReservedPeers : ℕ}
    (positive : 1 ≤ maxNonReservedPeers) :
    (new reservedPeers maxNonReservedPeers).Slots where
  bounded := Nat.zero_le _
  reservedOnly := Finset.empty_subset _
  noneReserved := Finset.disjoint_empty_left _
  openBelowLimit _ := positive

variable {peerManager}

theorem Slots.handlePeerConnected (slots : peerManager.Slots) :
    (peerManager.handlePeerConnected peerId).1.Slots := by
  have sameReserved := peerManager.reservedPeers_apply (.connected peerId)
  have sameMax := peerManager.maxNonReservedPeers_apply (.connected peerId)
  simp only [apply] at sameReserved sameMax
  obtain ⟨bounded, reservedOnly, noneReserved, openBelowLimit⟩ := slots
  rcases handlePeerConnected_cases peerManager peerId with
    ⟨nonReserved, reservedConnected, state, -⟩ |
    ⟨notReserved, fresh, room, nonReserved, reservedConnected, state, -⟩ |
    ⟨reserved, nonReserved, reservedConnected, state, -⟩
  · constructor <;> simp only [nonReserved, reservedConnected, state, sameReserved, sameMax] <;>
      assumption
  · -- a non-reserved peer takes a slot
    have grown := Finset.card_insert_of_notMem fresh
    refine ⟨?_, ?_, ?_, fun available => ?_⟩
    · rw [nonReserved, sameMax, grown]
      exact room
    · rw [reservedConnected, sameReserved]
      exact reservedOnly
    · rw [nonReserved, sameReserved, Finset.disjoint_insert_left]
      exact ⟨notReserved, noneReserved⟩
    · rw [nonReserved, sameMax, grown]
      rw [state] at available
      split_ifs at available with last
      · cases available
      · omega
  · -- a reserved peer connects
    refine ⟨?_, ?_, ?_, ?_⟩
    · rw [nonReserved, sameMax]
      exact bounded
    · rw [reservedConnected, sameReserved]
      exact Finset.insert_subset reserved reservedOnly
    · rw [nonReserved, sameReserved]
      exact noneReserved
    · rw [nonReserved, sameMax, state]
      exact openBelowLimit

theorem Slots.handlePeerDisconnect (slots : peerManager.Slots) :
    (peerManager.handlePeerDisconnect peerId).1.Slots := by
  have sameReserved := peerManager.reservedPeers_apply (.disconnected peerId)
  have sameMax := peerManager.maxNonReservedPeers_apply (.disconnected peerId)
  simp only [apply] at sameReserved sameMax
  obtain ⟨bounded, reservedOnly, noneReserved, openBelowLimit⟩ := slots
  rcases handlePeerDisconnect_cases peerManager peerId with
    ⟨nonReserved, reservedConnected, state⟩ |
    ⟨-, connected, nonReserved, reservedConnected, state⟩ |
    ⟨-, nonReserved, reservedConnected, state⟩
  · constructor <;> simp only [nonReserved, reservedConnected, state, sameReserved, sameMax] <;>
      assumption
  · -- a non-reserved peer frees its slot
    have shrunk := Finset.card_erase_of_mem connected
    have occupied := Finset.card_pos.mpr ⟨peerId, connected⟩
    refine ⟨?_, ?_, ?_, fun _ => ?_⟩
    · rw [nonReserved, sameMax, shrunk]
      omega
    · rw [reservedConnected, sameReserved]
      exact reservedOnly
    · rw [nonReserved, sameReserved]
      exact Finset.disjoint_of_subset_left (Finset.erase_subset _ _) noneReserved
    · rw [nonReserved, sameMax, shrunk]
      omega
  · -- a reserved peer leaves
    refine ⟨?_, ?_, ?_, ?_⟩
    · rw [nonReserved, sameMax]
      exact bounded
    · rw [reservedConnected, sameReserved]
      exact (Finset.erase_subset _ _).trans reservedOnly
    · rw [nonReserved, sameReserved]
      exact noneReserved
    · rw [nonReserved, sameMax, state]
      exact openBelowLimit

theorem Slots.apply (slots : peerManager.Slots) (event : PeerEvent PeerId) :
    (peerManager.apply event).Slots := by
  cases event with
  | connected peerId => exact slots.handlePeerConnected peerId
  | disconnected peerId => exact slots.handlePeerDisconnect peerId

theorem Slots.run (slots : peerManager.Slots) (events : List (PeerEvent PeerId)) :
    (peerManager.run events).Slots := by
  induction events generalizing peerManager with
  | nil => exact slots
  | cons event events induction => exact induction (slots.apply event)

theorem handlePeerConnected_disconnects_iff :
    (peerManager.handlePeerConnected peerId).2 = true ↔
      peerId ∉ peerManager.reservedPeers ∧ peerId ∉ peerManager.nonReservedConnectedPeers ∧
        peerManager.maxNonReservedPeers ≤ peerManager.nonReservedConnectedPeers.card := by
  rcases handlePeerConnected_cases peerManager peerId with
    ⟨-, -, -, disconnects⟩ | ⟨-, -, room, -, -, -, kept⟩ | ⟨reserved, -, -, -, kept⟩
  · exact disconnects
  · simp only [kept, Bool.false_eq_true, false_iff, not_and, not_le]
    exact fun _ _ => room
  · simp [kept, reserved]

/-- Every run from `PeerManager::new` with at least one slot keeps the invariant of the slots. -/
theorem slots_run (reservedPeers : Finset PeerId) {maxNonReservedPeers : ℕ}
    (positive : 1 ≤ maxNonReservedPeers) (events : List (PeerEvent PeerId)) :
    ((new reservedPeers maxNonReservedPeers).run events).Slots :=
  (slots_new reservedPeers positive).run events

/-- One slot and reserved peer 0: peers 1 and 2 compete for the slot, 1 leaves, 0 connects. -/
theorem one_slot_run_keeps_slots :
    1 ≤ 1 ∧ ((new ({0} : Finset ℕ) 1).run
      [.connected 1, .connected 2, .disconnected 1, .connected 0]).Slots :=
  ⟨le_refl 1, slots_run {0} (le_refl 1) _⟩

/-! ## A disconnection from a full table

`all_slots_taken` counts the table before the removal, so it holds when one slot was free, not
when none was: a peer leaving a full table leaves the slots closed. -/

theorem handlePeerDisconnect_of_full (slots : peerManager.Slots)
    (full : peerManager.nonReservedConnectedPeers.card = peerManager.maxNonReservedPeers)
    (notReserved : peerId ∉ peerManager.reservedPeers)
    (connected : peerId ∈ peerManager.nonReservedConnectedPeers) :
    let next := (peerManager.handlePeerDisconnect peerId).1
    next.nonReservedConnectedPeers.card < next.maxNonReservedPeers ∧
      next.connectionState.availableSlot = false := by
  have closed : peerManager.connectionState.availableSlot = false := by
    cases available : peerManager.connectionState.availableSlot
    · rfl
    · have := slots.openBelowLimit available
      omega
  have shrunk := Finset.card_erase_of_mem connected
  have occupied := Finset.card_pos.mpr ⟨peerId, connected⟩
  have notTaken : peerManager.maxNonReservedPeers ≠ peerManager.nonReservedConnectedPeers.card + 1 :=
    by omega
  simp only [handlePeerDisconnect, notReserved, connected, notTaken, decide_false, Bool.not_false,
    if_true, if_false]
  exact ⟨by rw [shrunk]; omega, closed⟩

/-- The slots closed on an empty non-reserved table. -/
structure Closed (peerManager : PeerManager PeerId) : Prop where
  denied : peerManager.connectionState.availableSlot = false
  empty : peerManager.nonReservedConnectedPeers = ∅

theorem Closed.applyTracked (closed : peerManager.Closed) (event : PeerEvent PeerId) :
    (peerManager.applyTracked event).Closed := by
  obtain ⟨denied, empty⟩ := closed
  cases event with
  | connected peerId =>
      simp only [PeerManager.applyTracked]
      split_ifs with allowed
      · have reserved : peerId ∈ peerManager.reservedPeers := by
          by_contra notReserved
          simp [tracker, ConnectionTracker.allowPeer, notReserved, denied] at allowed
        rcases handlePeerConnected_cases peerManager peerId with
          ⟨nonReserved, -, state, -⟩ | ⟨notReserved, -⟩ | ⟨-, nonReserved, -, state, -⟩
        · exact ⟨state ▸ denied, nonReserved ▸ empty⟩
        · exact absurd reserved notReserved
        · exact ⟨state ▸ denied, nonReserved ▸ empty⟩
      · exact ⟨denied, empty⟩
  | disconnected peerId =>
      rcases handlePeerDisconnect_cases peerManager peerId with
        ⟨nonReserved, -, state⟩ | ⟨-, connected, -⟩ | ⟨-, nonReserved, -, state⟩
      · exact ⟨state ▸ denied, nonReserved ▸ empty⟩
      · simp [empty] at connected
      · exact ⟨state ▸ denied, nonReserved ▸ empty⟩

theorem Closed.runTracked (closed : peerManager.Closed) (events : List (PeerEvent PeerId)) :
    (peerManager.runTracked events).Closed := by
  induction events generalizing peerManager with
  | nil => exact closed
  | cons event events induction => exact induction (closed.applyTracked event)

end PeerManager

/-- One non-reserved slot and no reserved peers. -/
def singleSlot : PeerManager ℕ :=
  PeerManager.new ∅ 1

/-- The table after its one slot's peer connected and then disconnected. -/
def slotFreedByDisconnect : PeerManager ℕ :=
  singleSlot.run [.connected 7, .disconnected 7]

theorem disconnect_from_full_table_keeps_slots_closed :
    slotFreedByDisconnect.nonReservedConnectedPeers.card <
        slotFreedByDisconnect.maxNonReservedPeers ∧
      slotFreedByDisconnect.tracker.allowPeer 8 = false ∧
      ∀ later, (slotFreedByDisconnect.runTracked later).nonReservedConnectedPeers = ∅ := by
  have closed : slotFreedByDisconnect.Closed := ⟨by decide, by decide⟩
  exact ⟨by decide, by decide, fun later => (closed.runTracked later).empty⟩

end FuelCore.P2p
