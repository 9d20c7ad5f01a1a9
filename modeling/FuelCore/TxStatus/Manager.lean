import Mathlib.Data.List.AList
import Mathlib.Data.List.Induction

/-! # The transaction status manager

`services/tx_status_manager/src/manager.rs` keeps the latest status of each transaction.
`Submitted` statuses are kept until another status replaces them; every other status is
prunable: it is stamped with the instant it arrived and queued, and a later update drops it
once it is at least `ttl` old. A transaction can be queued many times; the queue entry whose
instant is the one stamped on the status is the one that removes it.

The `VecDeque` is the list of its entries from the back to the front, so `pop_back` takes the
head and `push_front` appends. Instants are natural numbers, and `duration_since` is the
truncated difference; the two reads of `Instant::now()` in one update are the update's one
instant. What an update sends to subscribers and to the preconfirmation channel, and the
metrics, are not part of the manager's data.
-/

namespace FuelCore.TxStatus

abbrev TxId := ℕ

/-- `TransactionStatus`; each variant's record is its `details`, which the manager and the
streams only pass on. -/
inductive TransactionStatus
  | submitted (details : ℕ)
  | success (details : ℕ)
  | preConfirmationSuccess (details : ℕ)
  | squeezedOut (details : ℕ)
  | preConfirmationSqueezedOut (details : ℕ)
  | failure (details : ℕ)
  | preConfirmationFailure (details : ℕ)
  deriving DecidableEq, Repr

namespace TransactionStatus

def isFinal : TransactionStatus → Bool
  | .success _ | .failure _ | .squeezedOut _ | .preConfirmationSqueezedOut _ => true
  | .submitted _ | .preConfirmationSuccess _ | .preConfirmationFailure _ => false

/-- `TxStatusManager::is_prunable`: every status but `Submitted`. -/
def isPrunable : TransactionStatus → Bool
  | .submitted _ => false
  | _ => true

end TransactionStatus

structure Data where
  /-- The queue from its back to its front. -/
  pruningQueue : List (ℕ × TxId)
  nonPrunableStatuses : AList fun _ : TxId => TransactionStatus
  prunableStatuses : AList fun _ : TxId => ℕ × TransactionStatus

def Data.empty : Data := ⟨[], ∅, ∅⟩

structure TxStatusManager where
  data : Data
  ttl : ℕ

namespace TxStatusManager

def new (ttl : ℕ) : TxStatusManager := ⟨Data.empty, ttl⟩

/-- The loop of `prune_old_statuses`: pop the back of the queue while it is at least `ttl` old,
and drop the status of the popped transaction when it carries the popped instant. -/
def pruneQueue (now ttl : ℕ) :
    List (ℕ × TxId) → (AList fun _ : TxId => ℕ × TransactionStatus) →
      List (ℕ × TxId) × (AList fun _ : TxId => ℕ × TransactionStatus)
  | [], statuses => ([], statuses)
  | (past, txId) :: rest, statuses =>
      if now - past < ttl then ((past, txId) :: rest, statuses)
      else
        let statuses :=
          match statuses.lookup txId with
          | some (timestamp, _) => if timestamp = past then statuses.erase txId else statuses
          | none => statuses
        pruneQueue now ttl rest statuses

variable (manager : TxStatusManager)

def pruneOldStatuses (now : ℕ) : TxStatusManager :=
  let (pruningQueue, prunableStatuses) :=
    pruneQueue now manager.ttl manager.data.pruningQueue manager.data.prunableStatuses
  { manager with data := { manager.data with pruningQueue, prunableStatuses } }

def addNewStatus (now : ℕ) (txId : TxId) (txStatus : TransactionStatus) : TxStatusManager :=
  if txStatus.isPrunable then
    { manager with
      data :=
        { pruningQueue := manager.data.pruningQueue ++ [(now, txId)]
          prunableStatuses := manager.data.prunableStatuses.insert txId (now, txStatus)
          nonPrunableStatuses := manager.data.nonPrunableStatuses.erase txId } }
  else
    { manager with
      data :=
        { manager.data with
          nonPrunableStatuses := manager.data.nonPrunableStatuses.insert txId txStatus } }

def registerStatus (now : ℕ) (txId : TxId) (txStatus : TransactionStatus) :
    TxStatusManager :=
  (manager.pruneOldStatuses now).addNewStatus now txId txStatus

/-- `status_update`, as far as the manager's data goes. -/
def statusUpdate (now : ℕ) (txId : TxId) (txStatus : TransactionStatus) : TxStatusManager :=
  manager.registerStatus now txId txStatus

def status (txId : TxId) : Option TransactionStatus :=
  (manager.data.nonPrunableStatuses.lookup txId).or
    ((manager.data.prunableStatuses.lookup txId).map Prod.snd)

end TxStatusManager

/-- One `status_update` call, at an instant. -/
structure StatusCall where
  instant : ℕ
  txId : TxId
  status : TransactionStatus
  deriving DecidableEq, Repr

def TxStatusManager.run (manager : TxStatusManager) (calls : List StatusCall) : TxStatusManager :=
  calls.foldl (fun manager call => manager.statusUpdate call.instant call.txId call.status) manager

/-! ## The prune loop -/

namespace TxStatusManager

variable {now ttl : ℕ}

theorem lookup_popped (past : ℕ) (txId txId' : TxId)
    (statuses : AList fun _ : TxId => ℕ × TransactionStatus) :
    (match statuses.lookup txId with
      | some (timestamp, _) => if timestamp = past then statuses.erase txId else statuses
      | none => statuses).lookup txId' =
      if txId' = txId ∧ (statuses.lookup txId').map Prod.fst = some past then none
      else statuses.lookup txId' := by
  cases stored : statuses.lookup txId with
  | none =>
      by_cases same : txId' = txId
      · subst same
        simp [stored]
      · simp [same]
  | some entry =>
      obtain ⟨timestamp, txStatus⟩ := entry
      by_cases same : txId' = txId
      · subst same
        by_cases carries : timestamp = past
        · simp [stored, carries, AList.lookup_erase]
        · simp [stored, carries]
      · by_cases carries : timestamp = past
        · simp [same, carries, AList.lookup_erase_ne same]
        · simp [same, carries]

theorem pruneQueue_fst (queue : List (ℕ × TxId))
    (statuses : AList fun _ : TxId => ℕ × TransactionStatus)
    (ordered : queue.Pairwise fun back front => back.1 ≤ front.1) :
    (pruneQueue now ttl queue statuses).1 = queue.filter fun entry => now - entry.1 < ttl := by
  induction queue generalizing statuses with
  | nil => rfl
  | cons entry rest induction =>
      obtain ⟨past, txId⟩ := entry
      obtain ⟨older, restOrdered⟩ := List.pairwise_cons.mp ordered
      by_cases fresh : now - past < ttl
      · -- every entry in front of a young one is younger still
        have allFresh : ∀ later ∈ rest, now - later.1 < ttl := by
          intro later member
          have atLeast : past ≤ later.1 := older later member
          omega
        simp only [pruneQueue, fresh, if_true]
        rw [List.filter_cons_of_pos (by simpa using fresh),
          List.filter_eq_self.mpr (by simpa using allFresh)]
      · simp only [pruneQueue, fresh, if_false]
        rw [induction _ restOrdered, List.filter_cons_of_neg (by simpa using fresh)]

theorem pruneQueue_lookup (queue : List (ℕ × TxId))
    (statuses : AList fun _ : TxId => ℕ × TransactionStatus)
    (ordered : queue.Pairwise fun back front => back.1 ≤ front.1) (txId : TxId) :
    (pruneQueue now ttl queue statuses).2.lookup txId =
      (statuses.lookup txId).filter fun entry => (entry.1, txId) ∉ queue ∨ now - entry.1 < ttl := by
  induction queue generalizing statuses with
  | nil =>
      cases stored : statuses.lookup txId with
      | none => simp [pruneQueue, stored]
      | some stamped => simp [pruneQueue, stored, Option.filter_some]
  | cons entry rest induction =>
      obtain ⟨past, txId'⟩ := entry
      obtain ⟨older, restOrdered⟩ := List.pairwise_cons.mp ordered
      by_cases fresh : now - past < ttl
      · -- nothing is popped, and every queued entry is young
        have allFresh : ∀ later ∈ (past, txId') :: rest, now - later.1 < ttl := by
          intro later member
          rcases List.mem_cons.mp member with head | behind
          · rw [head]
            exact fresh
          · have atLeast : past ≤ later.1 := older later behind
            omega
        simp only [pruneQueue, fresh, if_true]
        cases stored : statuses.lookup txId with
        | none => rfl
        | some stamped =>
            have young : (stamped.1, txId) ∉ (past, txId') :: rest ∨ now - stamped.1 < ttl := by
              by_cases queued : (stamped.1, txId) ∈ (past, txId') :: rest
              · exact .inr (allFresh _ queued)
              · exact .inl queued
            simp only [Option.filter_some, young, decide_true, if_true]
      · simp only [pruneQueue, fresh, if_false]
        rw [induction _ restOrdered, lookup_popped]
        by_cases popped : txId = txId' ∧ (statuses.lookup txId).map Prod.fst = some past
        · rw [if_pos popped]
          obtain ⟨sameTx, stampedPast⟩ := popped
          subst sameTx
          obtain ⟨⟨timestamp, txStatus⟩, stored, pastEq⟩ := Option.map_eq_some_iff.mp stampedPast
          simp only at pastEq
          subst pastEq
          rw [stored, Option.filter_some_neg (by simp [fresh])]
          rfl
        · rw [if_neg popped]
          cases stored : statuses.lookup txId with
          | none => rfl
          | some stamped =>
              obtain ⟨timestamp, txStatus⟩ := stamped
              have other : ¬timestamp = past ∨ ¬txId = txId' := by
                by_cases same : timestamp = past
                · exact .inr fun sameTx => popped ⟨sameTx, by rw [stored, same]; rfl⟩
                · exact .inl same
              simp [Option.filter_some, other]

end TxStatusManager

/-! ## What a call does to the data -/

namespace TxStatusManager

variable (manager : TxStatusManager) {now : ℕ}

theorem pruneOldStatuses_data
    (ordered : manager.data.pruningQueue.Pairwise fun back front => back.1 ≤ front.1)
    (queued : ∀ txId instant txStatus, manager.data.prunableStatuses.lookup txId =
      some (instant, txStatus) → (instant, txId) ∈ manager.data.pruningQueue) :
    (manager.pruneOldStatuses now).data.pruningQueue =
        manager.data.pruningQueue.filter (fun entry => now - entry.1 < manager.ttl) ∧
      (∀ txId, (manager.pruneOldStatuses now).data.prunableStatuses.lookup txId =
        (manager.data.prunableStatuses.lookup txId).filter fun entry => now - entry.1 < manager.ttl) ∧
      (manager.pruneOldStatuses now).data.nonPrunableStatuses =
        manager.data.nonPrunableStatuses ∧
      (manager.pruneOldStatuses now).ttl = manager.ttl := by
  refine ⟨pruneQueue_fst _ _ ordered, fun txId => ?_, rfl, rfl⟩
  rw [pruneOldStatuses, pruneQueue_lookup _ _ ordered]
  cases stored : manager.data.prunableStatuses.lookup txId with
  | none => rfl
  | some entry =>
      -- a stored status is queued under its stamp, so only its age decides
      have member := queued txId entry.1 entry.2 stored
      by_cases fresh : now - entry.1 < manager.ttl
      · simp [Option.filter_some, fresh]
      · simp [Option.filter_some, fresh, member]

end TxStatusManager

/-! ## The data's invariant -/

namespace Data

/-- What `assert_consistency` checks, with the order of the queue: every prunable status is
queued under its stamp, every queued transaction has a prunable status, and the instants grow
from the back of the queue to its front. -/
structure Consistent (data : Data) : Prop where
  queued : ∀ txId instant txStatus, data.prunableStatuses.lookup txId = some (instant, txStatus) →
    (instant, txId) ∈ data.pruningQueue
  keyed : ∀ entry ∈ data.pruningQueue, entry.2 ∈ data.prunableStatuses
  ordered : data.pruningQueue.Pairwise fun back front => back.1 ≤ front.1

/-- The consistency, with two facts about instants that updates up to `now` keep: a queued
instant is at most the stamp of its transaction's status, and at most `now`. -/
structure Tracks (data : Data) (now : ℕ) : Prop where
  queued : ∀ txId instant txStatus, data.prunableStatuses.lookup txId = some (instant, txStatus) →
    (instant, txId) ∈ data.pruningQueue
  stamped : ∀ entry ∈ data.pruningQueue, ∃ instant txStatus,
    data.prunableStatuses.lookup entry.2 = some (instant, txStatus) ∧ entry.1 ≤ instant
  ordered : data.pruningQueue.Pairwise fun back front => back.1 ≤ front.1
  bounded : ∀ entry ∈ data.pruningQueue, entry.1 ≤ now

variable {data : Data} {now : ℕ}

theorem Tracks.consistent (tracks : data.Tracks now) : data.Consistent := by
  refine ⟨tracks.queued, fun entry member => ?_, tracks.ordered⟩
  obtain ⟨instant, txStatus, stored, -⟩ := tracks.stamped entry member
  exact AList.lookup_isSome.mp (by rw [stored]; rfl)

theorem tracks_empty : empty.Tracks 0 := by
  constructor
  · intro txId instant txStatus stored
    cases stored
  · intro entry member
    cases member
  · exact List.Pairwise.nil
  · intro entry member
    cases member

variable {manager : TxStatusManager} {later : ℕ}

theorem Tracks.pruneOldStatuses (tracks : manager.data.Tracks now) (ordered : now ≤ later) :
    (manager.pruneOldStatuses later).data.Tracks later := by
  obtain ⟨queue, prunable, -, -⟩ := manager.pruneOldStatuses_data tracks.ordered tracks.queued
  constructor
  · intro txId instant txStatus stored
    rw [prunable, Option.filter_eq_some_iff] at stored
    obtain ⟨stored, fresh⟩ := stored
    rw [queue, List.mem_filter]
    exact ⟨tracks.queued txId instant txStatus stored, fresh⟩
  · intro entry member
    rw [queue, List.mem_filter] at member
    obtain ⟨member, fresh⟩ := member
    obtain ⟨instant, txStatus, stored, before⟩ := tracks.stamped entry member
    refine ⟨instant, txStatus, ?_, before⟩
    rw [prunable, stored, Option.filter_some_pos]
    simp only [decide_eq_true_eq] at fresh ⊢
    omega
  · rw [queue]
    exact tracks.ordered.filter _
  · intro entry member
    rw [queue, List.mem_filter] at member
    have := tracks.bounded entry member.1
    omega

theorem Tracks.addNewStatus (tracks : manager.data.Tracks now) (txId : TxId)
    (txStatus : TransactionStatus) : (manager.addNewStatus now txId txStatus).data.Tracks now := by
  unfold TxStatusManager.addNewStatus
  split
  · constructor
    · intro txId' instant txStatus' stored
      rw [List.mem_append, List.mem_singleton]
      by_cases same : txId' = txId
      · subst same
        rw [AList.lookup_insert] at stored
        cases stored
        exact .inr rfl
      · rw [AList.lookup_insert_ne same] at stored
        exact .inl (tracks.queued txId' instant txStatus' stored)
    · intro entry member
      by_cases same : entry.2 = txId
      · refine ⟨now, txStatus, by rw [same, AList.lookup_insert], ?_⟩
        rcases List.mem_append.mp member with queued | added
        · exact tracks.bounded entry queued
        · rw [List.mem_singleton.mp added]
      · rw [AList.lookup_insert_ne same]
        rcases List.mem_append.mp member with queued | added
        · exact tracks.stamped entry queued
        · exact absurd (by rw [List.mem_singleton.mp added]) same
    · refine List.pairwise_append.mpr ⟨tracks.ordered, List.pairwise_singleton _ _, ?_⟩
      intro entry member added addedMember
      rw [List.mem_singleton.mp addedMember]
      exact tracks.bounded entry member
    · intro entry member
      rcases List.mem_append.mp member with queued | added
      · exact tracks.bounded entry queued
      · rw [List.mem_singleton.mp added]
  · exact ⟨tracks.queued, tracks.stamped, tracks.ordered, tracks.bounded⟩

theorem Tracks.statusUpdate (tracks : manager.data.Tracks now) (ordered : now ≤ later)
    (txId : TxId) (txStatus : TransactionStatus) :
    (manager.statusUpdate later txId txStatus).data.Tracks later :=
  (tracks.pruneOldStatuses ordered).addNewStatus txId txStatus

end Data

/-! ## The statuses the manager should answer -/

def latestRegistration (calls : List StatusCall) (txId : TxId) : Option StatusCall :=
  calls.reverse.find? fun call => call.txId = txId

/-- The last call for a transaction with a prunable status. -/
def latestPrunable (calls : List StatusCall) (txId : TxId) : Option StatusCall :=
  calls.reverse.find? fun call => call.txId = txId ∧ call.status.isPrunable

/-- After `calls` and then `last`: the status `last` registered, or else the most recent
earlier one, unless it is prunable and at least `ttl` old at the instant of `last`. -/
def expectedStatus (ttl : ℕ) (calls : List StatusCall) (last : StatusCall) (txId : TxId) :
    Option TransactionStatus :=
  if last.txId = txId then some last.status
  else
    match latestRegistration calls txId with
    | some call => if call.status.isPrunable ∧ ttl ≤ last.instant - call.instant then none
        else some call.status
    | none => none

section Latest

variable {calls : List StatusCall} {txId : TxId} {call : StatusCall}

@[simp] theorem latestRegistration_nil : latestRegistration [] txId = none := rfl

@[simp] theorem latestPrunable_nil : latestPrunable [] txId = none := rfl

@[simp] theorem latestRegistration_append_singleton :
    latestRegistration (calls ++ [call]) txId =
      if call.txId = txId then some call else latestRegistration calls txId := by
  by_cases same : call.txId = txId <;> simp [latestRegistration, same]

@[simp] theorem latestPrunable_append_singleton :
    latestPrunable (calls ++ [call]) txId =
      if call.txId = txId ∧ call.status.isPrunable then some call else latestPrunable calls txId := by
  by_cases chosen : call.txId = txId ∧ call.status.isPrunable <;> simp [latestPrunable, chosen]

theorem instant_le_of_latestPrunable {now : ℕ} (past : ∀ call ∈ calls, call.instant ≤ now)
    (latest : latestPrunable calls txId = some call) : call.instant ≤ now :=
  past call (List.mem_reverse.mp (List.mem_of_find?_eq_some latest))

theorem latestPrunable_of_latestRegistration (latest : latestRegistration calls txId = some call)
    (prunable : call.status.isPrunable) : latestPrunable calls txId = some call := by
  unfold latestRegistration at latest
  unfold latestPrunable
  generalize calls.reverse = reversed at latest
  induction reversed with
  | nil => cases latest
  | cons first rest induction =>
      by_cases same : first.txId = txId
      · rw [List.find?_cons_of_pos (by simpa using same)] at latest
        cases latest
        exact List.find?_cons_of_pos (by simp [same, prunable])
      · rw [List.find?_cons_of_neg (by simpa using same)] at latest
        rw [List.find?_cons_of_neg (by simp [same])]
        exact induction latest

theorem latestPrunable_of_none (absent : latestRegistration calls txId = none) :
    latestPrunable calls txId = none := by
  unfold latestRegistration at absent
  unfold latestPrunable
  rw [List.find?_eq_none] at absent ⊢
  intro other member chosen
  exact absent other member (by simp_all)

end Latest

namespace Data

/-- The data holds what the calls of `history` registered, as of the update at `now`: the
transactions whose last status is `Submitted`, and the last prunable status of each transaction
if `current` registered it or it is younger than `ttl`. -/
structure Represents (ttl : ℕ) (history : List StatusCall) (now : ℕ) (current : Option TxId)
    (data : Data) : Prop where
  nonPrunable : ∀ txId, data.nonPrunableStatuses.lookup txId =
    (latestRegistration history txId).bind fun call =>
      if call.status.isPrunable then none else some call.status
  prunable : ∀ txId, data.prunableStatuses.lookup txId =
    ((latestPrunable history txId).map fun call => (call.instant, call.status)).filter
      fun entry => current = some txId ∨ now - entry.1 < ttl
  past : ∀ call ∈ history, call.instant ≤ now

theorem represents_empty (ttl : ℕ) : empty.Represents ttl [] 0 none :=
  ⟨fun _ => rfl, fun _ => rfl, fun _ member => by cases member⟩

/-- The transaction a call leaves as just registered: its own, for a prunable status. -/
def registered (call : StatusCall) : Option TxId :=
  if call.status.isPrunable then some call.txId else none

variable {manager : TxStatusManager} {history : List StatusCall} {now : ℕ}
  {current : Option TxId}

theorem filter_young {latest : Option StatusCall} {txId : TxId} {ttl later : ℕ}
    (past : ∀ call, latest = some call → call.instant ≤ now) (ordered : now ≤ later) :
    (((latest.map fun call => (call.instant, call.status)).filter
        fun entry => current = some txId ∨ now - entry.1 < ttl).filter
        fun entry => later - entry.1 < ttl) =
      (latest.map fun call => (call.instant, call.status)).filter
        fun entry => later - entry.1 < ttl := by
  cases latest with
  | none => rfl
  | some call =>
      have before := past call rfl
      by_cases young : later - call.instant < ttl
      · have youngBefore : now - call.instant < ttl := by omega
        simp [Option.filter_some, young, youngBefore]
      · by_cases chosen : current = some txId ∨ now - call.instant < ttl <;>
          simp [Option.filter_some, young, chosen]

theorem Represents.statusUpdate {ttl : ℕ} (same : manager.ttl = ttl)
    (represents : manager.data.Represents ttl history now current)
    (tracks : manager.data.Tracks now) {next : StatusCall} (ordered : now ≤ next.instant) :
    (manager.statusUpdate next.instant next.txId next.status).data.Represents ttl
      (history ++ [next]) next.instant (registered next) := by
  subst same
  obtain ⟨queue, prunable, nonPrunable, -⟩ :=
    @TxStatusManager.pruneOldStatuses_data manager next.instant tracks.ordered tracks.queued
  have pruned : ∀ txId,
      (manager.pruneOldStatuses next.instant).data.prunableStatuses.lookup txId =
        ((latestPrunable history txId).map fun call => (call.instant, call.status)).filter
          fun entry => next.instant - entry.1 < manager.ttl := by
    intro txId
    rw [prunable, represents.prunable]
    exact filter_young (fun _ latest => instant_le_of_latestPrunable represents.past latest) ordered
  simp only [TxStatusManager.statusUpdate, TxStatusManager.registerStatus,
    TxStatusManager.addNewStatus]
  constructor
  · intro txId
    by_cases same : next.txId = txId
    · subst same
      split <;> simp [*]
    · split
      · rw [AList.lookup_erase_ne (Ne.symm same), nonPrunable, represents.nonPrunable]
        simp [same]
      · rw [AList.lookup_insert_ne (Ne.symm same), nonPrunable, represents.nonPrunable]
        simp [same]
  · intro txId
    by_cases same : next.txId = txId
    · subst same
      split
      · rename_i prunableStatus
        simp [registered, prunableStatus, Option.filter_some]
      · rename_i submitted
        rw [pruned]
        simp [registered, submitted]
    · split
      · rw [AList.lookup_insert_ne (Ne.symm same), pruned]
        simp [registered, same]
      · rw [pruned]
        simp [registered, same]
  · intro call member
    rcases List.mem_append.mp member with earlier | added
    · exact Nat.le_trans (represents.past call earlier) ordered
    · rw [List.mem_singleton.mp added]

end Data

namespace Data

variable {manager : TxStatusManager} {calls : List StatusCall} {last : StatusCall}

theorem Represents.status {ttl : ℕ} (same : manager.ttl = ttl)
    (represents : manager.data.Represents ttl (calls ++ [last]) last.instant (registered last))
    (txId : TxId) : manager.status txId = expectedStatus ttl calls last txId := by
  subst same
  unfold TxStatusManager.status expectedStatus
  rw [represents.nonPrunable, represents.prunable]
  by_cases same : last.txId = txId
  · subst same
    by_cases prunableStatus : last.status.isPrunable <;>
      simp [registered, prunableStatus, Option.filter_some]
  · cases latest : latestRegistration calls txId with
    | none => simp [same, latest, latestPrunable_of_none latest]
    | some call =>
        by_cases prunableStatus : call.status.isPrunable
        · -- a prunable status is answered while it is younger than `ttl`
          have lastPrunable := latestPrunable_of_latestRegistration latest prunableStatus
          by_cases young : last.instant - call.instant < manager.ttl
          · have notOld : ¬manager.ttl ≤ last.instant - call.instant := by omega
            simp [same, latest, lastPrunable, registered, prunableStatus, young, notOld,
              Option.filter_some]
          · have old : manager.ttl ≤ last.instant - call.instant := by omega
            simp [same, latest, lastPrunable, registered, prunableStatus, young, old,
              Option.filter_some]
        · simp [same, latest, prunableStatus]

end Data

namespace TxStatusManager

theorem statusUpdate_ttl (manager : TxStatusManager) (now : ℕ) (txId : TxId)
    (txStatus : TransactionStatus) : (manager.statusUpdate now txId txStatus).ttl = manager.ttl := by
  unfold statusUpdate registerStatus addNewStatus
  split <;> rfl

/-- Over calls at non-decreasing instants, by induction from the last call back. -/
theorem represents_run (ttl : ℕ) (calls : List StatusCall) (last : StatusCall)
    (ordered : (calls ++ [last]).Pairwise fun earlier later => earlier.instant ≤ later.instant) :
    ((new ttl).run (calls ++ [last])).data.Represents ttl (calls ++ [last]) last.instant
        (Data.registered last) ∧
      ((new ttl).run (calls ++ [last])).data.Tracks last.instant ∧
      ((new ttl).run (calls ++ [last])).ttl = ttl := by
  induction calls using List.reverseRecOn generalizing last with
  | nil =>
      have ran : (new ttl).run ([] ++ [last]) =
          (new ttl).statusUpdate last.instant last.txId last.status := rfl
      rw [ran]
      have represents : (new ttl).data.Represents ttl [] 0 none := Data.represents_empty ttl
      have tracks : (new ttl).data.Tracks 0 := Data.tracks_empty
      exact ⟨represents.statusUpdate rfl tracks (Nat.zero_le _),
        tracks.statusUpdate (Nat.zero_le _) _ _, statusUpdate_ttl (new ttl) _ _ _⟩
  | append_singleton calls previous induction =>
      have earlier : (calls ++ [previous]).Pairwise
          fun earlier later => earlier.instant ≤ later.instant :=
        ordered.sublist (List.sublist_append_left _ _)
      have step : previous.instant ≤ last.instant :=
        (List.pairwise_append.mp ordered).2.2 previous (by simp) last (by simp)
      obtain ⟨represents, tracks, ttlSame⟩ := induction previous earlier
      have ran : (new ttl).run (calls ++ [previous] ++ [last]) =
          ((new ttl).run (calls ++ [previous])).statusUpdate last.instant last.txId last.status :=
        List.foldl_append ..
      rw [ran, statusUpdate_ttl]
      exact ⟨represents.statusUpdate ttlSame tracks step, tracks.statusUpdate step _ _, ttlSame⟩

end TxStatusManager

/-- After every call of a sequence at non-decreasing instants, the manager answers each
transaction with its most recent status if that is `Submitted`, was registered by this call, or
is younger than `ttl`, and with nothing otherwise; and its data stays consistent. -/
theorem status_follows_latest_registration (ttl : ℕ) (calls : List StatusCall) (last : StatusCall)
    (ordered : (calls ++ [last]).Pairwise fun earlier later => earlier.instant ≤ later.instant) :
    (∀ txId, ((TxStatusManager.new ttl).run (calls ++ [last])).status txId =
        expectedStatus ttl calls last txId) ∧
      ((TxStatusManager.new ttl).run (calls ++ [last])).data.Consistent := by
  obtain ⟨represents, tracks, ttlSame⟩ := TxStatusManager.represents_run ttl calls last ordered
  exact ⟨represents.status ttlSame, tracks.consistent⟩

/-- Transaction 1 succeeds at instant 0 and is submitted again at 5; transaction 2 fails at 8;
at 20, with a `ttl` of 10, transaction 3 is submitted. -/
def resubmittedCalls : List StatusCall :=
  [⟨0, 1, .success 0⟩, ⟨5, 1, .submitted 1⟩, ⟨8, 2, .failure 2⟩]

def lateSubmission : StatusCall := ⟨20, 3, .submitted 3⟩

/-- The failure of transaction 2 is 12 old at instant 20 and is gone; the resubmission of
transaction 1 stays. -/
example : ((TxStatusManager.new 10).run (resubmittedCalls ++ [lateSubmission])).status 2 = none ∧
    ((TxStatusManager.new 10).run (resubmittedCalls ++ [lateSubmission])).status 1 =
      some (.submitted 1) := by
  decide

theorem late_submission_follows_latest_registration :
    (resubmittedCalls ++ [lateSubmission]).Pairwise
        (fun earlier later => earlier.instant ≤ later.instant) ∧
      (∀ txId, ((TxStatusManager.new 10).run (resubmittedCalls ++ [lateSubmission])).status txId =
        expectedStatus 10 resubmittedCalls lateSubmission txId) ∧
      ((TxStatusManager.new 10).run (resubmittedCalls ++ [lateSubmission])).data.Consistent := by
  have ordered : (resubmittedCalls ++ [lateSubmission]).Pairwise
      (fun earlier later => earlier.instant ≤ later.instant) := by decide
  exact ⟨ordered, status_follows_latest_registration 10 resubmittedCalls lateSubmission ordered⟩

end FuelCore.TxStatus
