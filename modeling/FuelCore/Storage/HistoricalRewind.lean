import Mathlib.Data.Nat.Find
import FuelCore.Storage.HistoricalRocksDb

/-! # State rewind keeps a window of snapshots

The historical database promises the state after each live height: its original columns
hold the latest state, and a view at a live height reads the state after it. The promise
is a window of snapshots (`Snapshots`): a commit adds the state it makes, a rollback
drops the latest one, and under `RewindRange { size }` the window keeps at most `size`
heights. `Represents` relates a database to the window it keeps, and every call keeps
the relation, so the database refines the window over any run of calls.

A view reads a key from the first duplicate entry at or after the key at the next
height. Under one key length per column, the duplicate entries of one key sort by
height, those of smaller keys before them and those of greater keys after them, so the
first entry is the key's at the first height after the view's that changed it, and that
entry restores the value the view must read.
-/

namespace FuelCore.Storage

open AList ByteOrder

/-! ## Undoing a change -/

/-- The operation that restores a value: `Insert` it, or `Remove` where there was none. -/
def WriteOperation.restoring : Option Bytes → WriteOperation
  | some value => .insert value
  | none => .remove

@[simp] theorem WriteOperation.value_restoring (value : Option Bytes) :
    (WriteOperation.restoring value).value = value := by
  cases value <;> rfl

/-- What undoes the change of a key between two states: nothing where it is unchanged. -/
def undo (before after : KvMap) (column : Nat) (key : Bytes) : Option WriteOperation :=
  if before.lookup column key = after.lookup column key then none
  else some (.restoring (before.lookup column key))

theorem undo_eq_none_iff {before after : KvMap} {column : Nat} {key : Bytes} :
    undo before after column key = none ↔ before.lookup column key = after.lookup column key := by
  unfold undo
  split_ifs with same <;> simp [same]

theorem value_of_undo_eq_some {before after : KvMap} {column : Nat} {key : Bytes}
    {operation : WriteOperation} (undone : undo before after column key = some operation) :
    operation.value = before.lookup column key := by
  unfold undo at undone
  split_ifs at undone
  cases undone
  exact WriteOperation.value_restoring _

theorem overlay_undo {before after : KvMap} {changes : Changes}
    (undoes : ∀ column key, getFromChanges changes key column = undo before after column key) :
    after.overlay changes = before := by
  apply KvMap.ext
  funext column key
  rw [KvMap.lookup_overlay, undoes]
  cases undone : undo before after column key with
  | none => exact (undo_eq_none_iff.mp undone).symm
  | some operation => exact value_of_undo_eq_some undone

theorem KvMap.lookup_overlay_of_pending {m : KvMap} {changes : Changes} {column : Nat}
    {key : Bytes} {operation : WriteOperation}
    (pending : getFromChanges changes key column = some operation) :
    (m.overlay changes).lookup column key = operation.value := by
  rw [KvMap.lookup_overlay, pending]

theorem KvMap.lookup_overlay_of_missing {m : KvMap} {changes : Changes} {column : Nat}
    {key : Bytes} (missing : getFromChanges changes key column = none) :
    (m.overlay changes).lookup column key = m.lookup column key := by
  rw [KvMap.lookup_overlay, missing]

theorem reverseOperation_eq (was : Option Bytes) (became : WriteOperation) :
    reverseOperation was became =
      if was = became.value then none else some (.restoring was) := by
  cases was <;> cases became <;> simp [reverseOperation, WriteOperation.value,
    WriteOperation.restoring, eq_comm]

/-! ## Height keys -/

@[simp] theorem length_heightKey (key : Bytes) (height : ℕ) :
    (heightKey key height).length = key.length + 8 := by
  simp [heightKey]

theorem take_heightKey (key : Bytes) (height : ℕ) : (heightKey key height).take key.length = key :=
  List.take_left' rfl

theorem heightKey_injective {key key' : Bytes} {height height' : ℕ} (bounded : height < 2 ^ 64)
    (bounded' : height' < 2 ^ 64) (same : heightKey key height = heightKey key' height') :
    key = key' ∧ height = height' := by
  have lengths := congrArg List.length same
  simp only [length_heightKey, Nat.add_right_cancel_iff] at lengths
  obtain ⟨sameKey, sameBytes⟩ := List.append_inj same lengths
  exact ⟨sameKey, toBeBytes_injective 8 (by simpa using bounded) (by simpa using bounded') sameBytes⟩

theorem heightKey_le_heightKey_iff (key : Bytes) {height height' : ℕ} (bounded : height < 2 ^ 64)
    (bounded' : height' < 2 ^ 64) : heightKey key height ≤ heightKey key height' ↔ height ≤ height' := by
  rw [heightKey, heightKey, List.append_le_append_left_iff, ← List.not_lt,
    toBeBytes_lt_iff 8 (by simpa using bounded') (by simpa using bounded), Nat.not_lt]

theorem heightKey_le_heightKey_iff_of_ne {key key' : Bytes} (length : key.length = key'.length)
    (different : key ≠ key') (height height' : ℕ) :
    heightKey key height ≤ heightKey key' height' ↔ key < key' :=
  List.append_le_append_iff_of_ne length different _ _

/-! ## What the database's loops compute -/

namespace HistoricalRocksDb

variable (db : HistoricalRocksDb)

theorem lookup_reverseColumnChanges (column : Nat) (columnChanges : ColumnChanges) (key : Bytes) :
    (db.reverseColumnChanges column ∅ columnChanges).lookup key =
      (columnChanges.lookup key).bind (reverseOperation (db.original.lookup column key)) := by
  refine (lookup_foldl_of_step _ columnChanges.nodupKeys _
    (fun key became => reverseOperation (db.original.lookup column key) became) ?_ ∅ key).trans ?_
  · intro s written became other
    dsimp only
    split
    · case h_1 operation reversed =>
        rw [reversed]
        by_cases here : other = written
        · subst here
          simp [AList.lookup_insert]
        · simp [here, AList.lookup_insert_ne here]
    · case h_2 unchanged =>
        rw [unchanged]
        split_ifs <;> simp
  · change (columnChanges.lookup key).elim _ _ = _
    cases columnChanges.lookup key <;> simp

theorem getFromChanges_reverseHistoryChanges (changes : Changes) (key : Bytes) (column : Nat) :
    getFromChanges (db.reverseHistoryChanges changes) key column =
      undo db.original (db.original.overlay changes) column key := by
  have reverseLookup : (db.reverseHistoryChanges changes).lookup column =
      (changes.lookup column).map (db.reverseColumnChanges column ∅) := by
    unfold reverseHistoryChanges
    rw [lookup_foldl_modifyD _ changes.nodupKeys ∅
      (fun column columnChanges entry => db.reverseColumnChanges column entry columnChanges)]
    change (changes.lookup column).elim _ _ = _
    cases changes.lookup column <;> simp
  rw [getFromChanges, reverseLookup, undo]
  cases found : changes.lookup column with
  | none =>
      have missing : getFromChanges changes key column = none := by simp [getFromChanges, found]
      simp [KvMap.lookup_overlay_of_missing missing]
  | some columnChanges =>
      simp only [Option.map_some, Option.bind_some, lookup_reverseColumnChanges]
      cases written : columnChanges.lookup key with
      | none =>
          have missing : getFromChanges changes key column = none := by
            simp [getFromChanges, found, written]
          simp [KvMap.lookup_overlay_of_missing missing]
      | some became =>
          have pending : getFromChanges changes key column = some became := by
            simp [getFromChanges, found, written]
          simp [KvMap.lookup_overlay_of_pending pending, reverseOperation_eq]

theorem duplicates_removeHistoricalModifications (height : ℕ) (reverseChanges : Changes)
    (column : Nat) :
    (db.removeHistoricalModifications height reverseChanges).duplicates column =
      eraseKeys ((((reverseChanges.lookup column).map keys).getD []).map (heightKey · height))
        (db.duplicates column) := by
  refine (foldl_update_apply _ reverseChanges.nodupKeys
    (fun _ columnChanges duplicate => eraseKeys (columnChanges.keys.map (heightKey · height))
      duplicate) db.duplicates column).trans ?_
  change (reverseChanges.lookup column).elim _ _ = _
  cases reverseChanges.lookup column <;> rfl

theorem duplicates_duplicateHistoryChanges (height : ℕ) (reverseChanges : Changes)
    (column : Nat) :
    (db.duplicateHistoryChanges height reverseChanges).duplicates column =
      (db.duplicates column).insertEach
        ((((reverseChanges.lookup column).map entries).getD []).map fun entry =>
          ⟨heightKey entry.1 height, entry.2⟩) := by
  refine (foldl_update_apply _ reverseChanges.nodupKeys
    (fun _ columnChanges duplicate => duplicate.insertEach
      (columnChanges.entries.map fun entry => ⟨heightKey entry.1 height, entry.2⟩))
    db.duplicates column).trans ?_
  change (reverseChanges.lookup column).elim _ _ = _
  cases reverseChanges.lookup column <;> rfl

end HistoricalRocksDb

/-! ## Duplicate entries of one height -/

section HeightEntries

variable (height : ℕ)

theorem nodupKeys_map_heightKey {entries : List (Σ _ : Bytes, WriteOperation)}
    (distinct : entries.NodupKeys) :
    (entries.map fun entry => (⟨heightKey entry.1 height, entry.2⟩ : Σ _ : Bytes, WriteOperation)).NodupKeys := by
  have injective : Function.Injective (heightKey · height) :=
    fun _ _ same => List.append_cancel_right same
  unfold List.NodupKeys at distinct ⊢
  simpa [List.keys, List.map_map, Function.comp_def] using distinct.map injective

theorem dlookup_map_heightKey (entries : List (Σ _ : Bytes, WriteOperation)) (key : Bytes) :
    (entries.map fun entry => (⟨heightKey entry.1 height, entry.2⟩ : Σ _ : Bytes, WriteOperation)).dlookup
      (heightKey key height) = entries.dlookup key := by
  induction entries with
  | nil => rfl
  | cons entry entries induction =>
      obtain ⟨written, operation⟩ := entry
      by_cases here : key = written
      · subst here
        simp [List.dlookup_cons_eq]
      · have different : heightKey key height ≠ heightKey written height :=
          fun same => here (List.append_cancel_right same)
        rw [List.map_cons, List.dlookup_cons_ne _ _ different, List.dlookup_cons_ne _ _ here,
          induction]

theorem dlookup_map_heightKey_of_ne (entries : List (Σ _ : Bytes, WriteOperation)) {found : Bytes}
    (other : ∀ key, found ≠ heightKey key height) :
    (entries.map fun entry => (⟨heightKey entry.1 height, entry.2⟩ : Σ _ : Bytes, WriteOperation)).dlookup
      found = none := by
  rw [List.dlookup_eq_none]
  simp only [List.keys, List.map_map, List.mem_map, Function.comp_apply, not_exists, not_and]
  exact fun entry _ same => other entry.1 same.symm

/-- The entries of one column of changes, as the loops of the source read them. -/
theorem dlookup_columnEntries (changes : Changes) (column : Nat) (key : Bytes) :
    (((changes.lookup column).map entries).getD []).dlookup key = getFromChanges changes key column := by
  cases found : changes.lookup column with
  | none => simp [getFromChanges, found]
  | some columnChanges =>
      rw [getFromChanges, found]
      rfl

theorem nodupKeys_columnEntries (changes : Changes) (column : Nat) :
    (((changes.lookup column).map entries).getD []).NodupKeys := by
  cases changes.lookup column with
  | none => exact List.nodupKeys_nil
  | some columnChanges => exact columnChanges.nodupKeys

theorem mem_columnKeys_iff (changes : Changes) (column : Nat) (key : Bytes) :
    key ∈ (((changes.lookup column).map keys).getD []) ↔ getFromChanges changes key column ≠ none := by
  cases found : changes.lookup column with
  | none => simp [getFromChanges, found]
  | some columnChanges =>
      simp [getFromChanges, found, AList.mem_keys, AList.lookup_eq_none]

end HeightEntries

/-! ## The history a database keeps -/

/-- The history holds reverse changes for exactly the heights `live` admits, each undoing
what `undoAt` says the commit at its height changed, and the duplicate columns hold the same
operations under height keys. -/
structure HistoryMatches (db : HistoricalRocksDb) (live : ℕ → Prop)
    (undoAt : ℕ → Nat → Bytes → Option WriteOperation) : Prop where
  history : ∀ height, (db.history.lookup height).isSome ↔ live height
  reverse : ∀ height reverseChanges, db.history.lookup height = some reverseChanges →
    ∀ column key, getFromChanges reverseChanges key column = undoAt height column key
  duplicates : ∀ column found operation,
    (db.duplicates column).lookup found = some operation ↔
      ∃ key height, found = heightKey key height ∧ live height ∧
        undoAt height column key = some operation

namespace HistoryMatches

variable {db : HistoricalRocksDb} {live : ℕ → Prop}
  {undoAt : ℕ → Nat → Bytes → Option WriteOperation}

theorem congr (historyMatches : HistoryMatches db live undoAt) {live' : ℕ → Prop}
    {undoAt' : ℕ → Nat → Bytes → Option WriteOperation} (sameLive : ∀ height, live' height ↔ live height)
    (sameUndo : ∀ height, live height → undoAt' height = undoAt height) :
    HistoryMatches db live' undoAt' where
  history height := (historyMatches.history height).trans (sameLive height).symm
  reverse height reverseChanges found := by
    have recorded : live height := (historyMatches.history height).mp (by simp [found])
    rw [sameUndo height recorded]
    exact historyMatches.reverse height reverseChanges found
  duplicates column found operation := by
    rw [historyMatches.duplicates]
    constructor
    · rintro ⟨key, height, rfl, recorded, undone⟩
      exact ⟨key, height, rfl, (sameLive height).mpr recorded, by rw [sameUndo height recorded, undone]⟩
    · rintro ⟨key, height, rfl, recorded, undone⟩
      have recorded' := (sameLive height).mp recorded
      exact ⟨key, height, rfl, recorded', by rw [← sameUndo height recorded', undone]⟩

theorem withOriginal (historyMatches : HistoryMatches db live undoAt) (original : KvMap) :
    HistoryMatches { db with original := original } live undoAt :=
  ⟨historyMatches.history, historyMatches.reverse, historyMatches.duplicates⟩

variable (bounded : ∀ height, live height → height < 2 ^ 64)
include bounded

/-- Erasing a height's history and its duplicates, as `rollback_block_to` and
`cleanup_old_changes` do, leaves the other heights. -/
theorem drop (historyMatches : HistoryMatches db live undoAt) {height : ℕ} {reverseChanges : Changes}
    (found : db.history.lookup height = some reverseChanges) :
    HistoryMatches
      (({ db with history := db.history.erase height }).removeHistoricalModifications height
        reverseChanges)
      (fun other => live other ∧ other ≠ height) undoAt where
  history other := by
    rw [HistoricalRocksDb.history_removeHistoricalModifications]
    by_cases here : other = height
    · subst here
      simp [AList.lookup_erase]
    · rw [AList.lookup_erase_ne here, historyMatches.history]
      simp [here]
  reverse other reverseChanges' found' := by
    rw [HistoricalRocksDb.history_removeHistoricalModifications] at found'
    by_cases here : other = height
    · subst here
      simp [AList.lookup_erase] at found'
    · rw [AList.lookup_erase_ne here] at found'
      exact historyMatches.reverse other reverseChanges' found'
  duplicates column entryKey operation := by
    have recorded : live height := (historyMatches.history height).mp (by simp [found])
    rw [HistoricalRocksDb.duplicates_removeHistoricalModifications, lookup_eraseKeys]
    split_ifs with erased
    · -- the height's own entries are gone, and no other height has the same keys
      obtain ⟨key, -, rfl⟩ := List.mem_map.mp erased
      simp only [false_iff, not_exists, not_and]
      rintro key' height' same ⟨recorded', different⟩ _
      exact different (heightKey_injective (bounded _ recorded) (bounded _ recorded') same).2.symm
    · change (db.duplicates column).lookup entryKey = some operation ↔ _
      rw [historyMatches.duplicates]
      constructor
      · rintro ⟨key, height', rfl, recorded', undone⟩
        refine ⟨key, height', rfl, ⟨recorded', ?_⟩, undone⟩
        rintro rfl
        apply erased
        refine List.mem_map.mpr ⟨key, (mem_columnKeys_iff _ _ _).mpr ?_, rfl⟩
        rw [historyMatches.reverse _ reverseChanges found, undone]
        simp
      · rintro ⟨key, height', rfl, ⟨recorded', -⟩, undone⟩
        exact ⟨key, height', rfl, recorded', undone⟩

theorem add (historyMatches : HistoryMatches db live undoAt) {height : ℕ} (heightBounded : height < 2 ^ 64)
    (fresh : ¬ live height) (reverseChanges : Changes) :
    HistoryMatches
      (({ db with history := db.history.insert height reverseChanges }).duplicateHistoryChanges
        height reverseChanges)
      (fun other => live other ∨ other = height)
      (Function.update undoAt height fun column key => getFromChanges reverseChanges key column) where
  history other := by
    rw [HistoricalRocksDb.history_duplicateHistoryChanges]
    by_cases here : other = height
    · subst here
      simp [AList.lookup_insert]
    · rw [AList.lookup_insert_ne here, historyMatches.history]
      simp [here]
  reverse other reverseChanges' found' := by
    rw [HistoricalRocksDb.history_duplicateHistoryChanges] at found'
    by_cases here : other = height
    · subst here
      rw [AList.lookup_insert, Option.some_inj] at found'
      subst found'
      intro column key
      rw [Function.update_self]
    · rw [AList.lookup_insert_ne here] at found'
      rw [Function.update_of_ne here]
      exact historyMatches.reverse other reverseChanges' found'
  duplicates column entryKey operation := by
    rw [HistoricalRocksDb.duplicates_duplicateHistoryChanges,
      lookup_insertEach (nodupKeys_map_heightKey height (nodupKeys_columnEntries _ _))]
    change _ ↔ ∃ key height', entryKey = heightKey key height' ∧ (live height' ∨ height' = height) ∧
      Function.update undoAt height (fun column key => getFromChanges reverseChanges key column)
        height' column key = some operation
    by_cases own : ∃ key, entryKey = heightKey key height
    · -- an entry of the new height: the reverse changes answer, the columns below have none
      obtain ⟨key, rfl⟩ := own
      have before : (db.duplicates column).lookup (heightKey key height) = none := by
        cases old : (db.duplicates column).lookup (heightKey key height) with
        | none => rfl
        | some old =>
            obtain ⟨key', height', same, recorded', -⟩ := (historyMatches.duplicates _ _ _).mp old
            have sameHeight := (heightKey_injective heightBounded (bounded _ recorded') same).2
            exact absurd (sameHeight ▸ recorded') fresh
      rw [dlookup_map_heightKey, dlookup_columnEntries, before, Option.or_none]
      constructor
      · intro pending
        exact ⟨key, height, rfl, .inr rfl, by rw [Function.update_self]; exact pending⟩
      · rintro ⟨key', height', same, recorded', undone⟩
        have bounded' : height' < 2 ^ 64 := recorded'.elim (bounded _) (· ▸ heightBounded)
        obtain ⟨rfl, rfl⟩ := heightKey_injective heightBounded bounded' same
        rwa [Function.update_self] at undone
    · simp only [not_exists] at own
      rw [dlookup_map_heightKey_of_ne height _ own, Option.none_or, historyMatches.duplicates]
      constructor
      · rintro ⟨key, height', rfl, recorded', undone⟩
        have different : height' ≠ height := by
          rintro rfl
          exact fresh recorded'
        exact ⟨key, height', rfl, .inl recorded', by rw [Function.update_of_ne different]; exact undone⟩
      · rintro ⟨key, height', rfl, recorded', undone⟩
        have different : height' ≠ height := by
          rintro rfl
          exact own key rfl
        exact ⟨key, height', rfl, recorded'.resolve_right different,
          by rwa [Function.update_of_ne different] at undone⟩

end HistoryMatches

/-! ## A window of snapshots -/

/-- What a rewinding database is for: the state after each height of a window that ends at
the latest height. The window holds the heights from `lowest` to `latest`; it is empty when
`lowest = latest + 1`. -/
structure Snapshots where
  lowest : ℕ
  latest : ℕ
  state : ℕ → KvMap

/-- The lowest live height after a commit at `height`: under `RewindRange { size }`,
`cleanup_old_changes` drops the height `size` below it. -/
def lowestAfterCommit : StateRewindPolicy → ℕ → ℕ → ℕ
  | .rewindRange size, lowest, height => max lowest (height + 1 - size)
  | _, lowest, _ => lowest

namespace Snapshots

/-- A database at `latest` with no history: an empty window over its state. -/
def start (latest : ℕ) (original : KvMap) : Snapshots :=
  ⟨latest + 1, latest, fun _ => original⟩

variable (snapshots : Snapshots)

def Live (height : ℕ) : Prop :=
  snapshots.lowest ≤ height ∧ height ≤ snapshots.latest

/-- What undoes the commit at a height. -/
def undoAt (height : ℕ) : Nat → Bytes → Option WriteOperation :=
  undo (snapshots.state (height - 1)) (snapshots.state height)

/-- Commit the next height: its state is the latest one with the changes laid over it. -/
def commit (policy : StateRewindPolicy) (changes : Changes) : Snapshots where
  lowest := lowestAfterCommit policy snapshots.lowest (snapshots.latest + 1)
  latest := snapshots.latest + 1
  state := Function.update snapshots.state (snapshots.latest + 1)
    ((snapshots.state snapshots.latest).overlay changes)

/-- Drop the latest snapshot; an empty window stays as it is. -/
def rollback : Snapshots :=
  if snapshots.lowest ≤ snapshots.latest then { snapshots with latest := snapshots.latest - 1 }
  else snapshots

def step (policy : StateRewindPolicy) (snapshots : Snapshots) : RewindCall → Snapshots
  | .commit changes => snapshots.commit policy changes
  | .rollback => snapshots.rollback

def run (policy : StateRewindPolicy) (calls : List RewindCall) : Snapshots :=
  calls.foldl (step policy) snapshots

theorem lookup_eq_of_unchanged {column : Nat} {key : Bytes} {height top : ℕ} (le : height ≤ top)
    (unchanged : ∀ other, height < other → other ≤ top → snapshots.undoAt other column key = none) :
    (snapshots.state top).lookup column key = (snapshots.state height).lookup column key := by
  induction top, le using Nat.le_induction with
  | base => rfl
  | succ top le induction =>
      have kept : (snapshots.state top).lookup column key =
          (snapshots.state (top + 1)).lookup column key :=
        undo_eq_none_iff.mp (unchanged (top + 1) (by omega) le_rfl)
      rw [← kept, induction fun other after below => unchanged other after (by omega)]

theorem undoAt_commit_of_le (policy : StateRewindPolicy) (changes : Changes) {height : ℕ}
    (le : height ≤ snapshots.latest) :
    (snapshots.commit policy changes).undoAt height = snapshots.undoAt height := by
  have below : height - 1 ≠ snapshots.latest + 1 := by omega
  have at_ : height ≠ snapshots.latest + 1 := by omega
  simp only [undoAt, commit, Function.update_of_ne below, Function.update_of_ne at_]

theorem undoAt_commit_self (policy : StateRewindPolicy) (changes : Changes) :
    (snapshots.commit policy changes).undoAt (snapshots.latest + 1) =
      undo (snapshots.state snapshots.latest) ((snapshots.state snapshots.latest).overlay changes) := by
  have below : snapshots.latest ≠ snapshots.latest + 1 := by omega
  simp only [undoAt, commit, Function.update_self, Nat.add_sub_cancel, Function.update_of_ne below]

theorem latest_step_le (policy : StateRewindPolicy) (call : RewindCall) :
    (snapshots.step policy call).latest ≤ snapshots.latest + 1 := by
  cases call with
  | commit changes => exact le_rfl
  | rollback =>
      unfold step rollback
      split_ifs
      · exact (Nat.sub_le _ 1).trans (Nat.le_succ _)
      · exact Nat.le_succ _

end Snapshots

/-! ## Databases that keep a window -/

/-- The keys each commit writes to a column have the column's length, as the column's key
codec makes them. -/
def RewindCall.WritesKeysOf (keyLength : Nat → Nat) : RewindCall → Prop
  | .commit changes => ∀ column key, getFromChanges changes key column ≠ none →
      key.length = keyLength column
  | .rollback => True

theorem writesKeysOf_single {column : Nat} {key : Bytes} {operation : WriteOperation}
    (keyLength : Nat → Nat) (sized : key.length = keyLength column) :
    (RewindCall.commit ((∅ : Changes).insert column
      ((∅ : ColumnChanges).insert key operation))).WritesKeysOf keyLength := by
  intro column' key' found
  by_cases sameColumn : column' = column
  · subst sameColumn
    by_cases sameKey : key' = key
    · rw [sameKey]
      exact sized
    · rw [getFromChanges, AList.lookup_insert, Option.bind_some,
        AList.lookup_insert_ne sameKey, AList.lookup_empty] at found
      exact absurd rfl found
  · rw [getFromChanges, AList.lookup_insert_ne sameColumn, AList.lookup_empty] at found
    exact absurd rfl found

/-- A database keeps a window of snapshots: its original columns hold the latest state, and
its history and duplicate columns undo each live height, under a rewinding policy and with
the keys of each column of one length. -/
structure Represents (policy : StateRewindPolicy) (keyLength : Nat → Nat) (db : HistoricalRocksDb)
    (snapshots : Snapshots) : Prop where
  rewindPolicy : db.stateRewindPolicy = policy
  rewinds : policy ≠ .noRewind
  original : db.original = snapshots.state snapshots.latest
  lowestPositive : 1 ≤ snapshots.lowest
  window : snapshots.lowest ≤ snapshots.latest + 1
  bounded : snapshots.latest + 2 ≤ u64Max
  sized : ∀ size, policy = .rewindRange size → snapshots.latest + 1 ≤ snapshots.lowest + size
  historyMatches : HistoryMatches db snapshots.Live snapshots.undoAt
  keyLength : ∀ height, snapshots.Live height → ∀ column key,
    snapshots.undoAt height column key ≠ none → key.length = keyLength column

theorem Snapshots.not_live_start {latest height : ℕ} {original : KvMap} :
    ¬ (Snapshots.start latest original).Live height := by
  simp only [Snapshots.Live, Snapshots.start]
  omega

theorem lt_of_le_u64Max {n : ℕ} (le : n ≤ u64Max) : n < 2 ^ 64 := by
  have positive : 0 < 2 ^ 64 := Nat.two_pow_pos 64
  unfold u64Max at le
  omega

theorem represents_start {policy : StateRewindPolicy} (rewinds : policy ≠ .noRewind)
    (keyLength : Nat → Nat) (original : KvMap) {latest : ℕ} (bounded : latest + 2 ≤ u64Max) :
    Represents policy keyLength (HistoricalRocksDb.new original policy)
      (Snapshots.start latest original) where
  rewindPolicy := rfl
  rewinds := rewinds
  original := rfl
  lowestPositive := by simp [Snapshots.start]
  window := le_rfl
  bounded := bounded
  sized _ _ := by simp [Snapshots.start]
  historyMatches := by
    constructor
    · intro height
      exact iff_of_false (by simp [HistoricalRocksDb.new]) Snapshots.not_live_start
    · intro height reverseChanges found
      simp [HistoricalRocksDb.new] at found
    · intro column found operation
      exact iff_of_false (by simp [HistoricalRocksDb.new])
        fun ⟨_, _, _, live, _⟩ => Snapshots.not_live_start live
  keyLength _ live := absurd live Snapshots.not_live_start

namespace Represents

variable {policy : StateRewindPolicy} {keyLength : Nat → Nat} {db : HistoricalRocksDb}
  {snapshots : Snapshots} (represents : Represents policy keyLength db snapshots)
include represents

theorem lt_of_live {height : ℕ} (live : snapshots.Live height) : height < 2 ^ 64 :=
  lt_of_le_u64Max (by have := represents.bounded; have := live.2; omega)

theorem entry {column : Nat} {found : Bytes} {operation : WriteOperation}
    (present : (db.duplicates column).lookup found = some operation) :
    ∃ key height, found = heightKey key height ∧ snapshots.Live height ∧
      snapshots.undoAt height column key = some operation ∧ key.length = keyLength column := by
  obtain ⟨key, height, rfl, live, undone⟩ := (represents.historyMatches.duplicates _ _ _).mp present
  exact ⟨key, height, rfl, live, undone, represents.keyLength height live column key (by simp [undone])⟩

/-- A view reads a key from the entry of the first later height that changed it, which
restores the value after the view's height, or from the original columns if no later height
changed it. -/
theorem get {height : ℕ} (above : snapshots.lowest ≤ height + 1) (below : height ≤ snapshots.latest)
    {column : Nat} {key : Bytes} (length : key.length = keyLength column) :
    ViewAtHeight.get ⟨height + 1, db⟩ key column = some ((snapshots.state height).lookup column key) := by
  have nextBounded : height + 1 < 2 ^ 64 :=
    lt_of_le_u64Max (by have := represents.bounded; omega)
  classical
  by_cases changed : ∃ other, height < other ∧ other ≤ snapshots.latest ∧
      snapshots.undoAt other column key ≠ none
  · -- the first later height that changed the key
    obtain ⟨after, top, undone⟩ := Nat.find_spec changed
    obtain ⟨operation, operationEq⟩ := Option.ne_none_iff_exists'.mp undone
    have firstLive : snapshots.Live (Nat.find changed) := ⟨by omega, top⟩
    have firstBounded := represents.lt_of_live firstLive
    have seek : (db.duplicates column).seekForward (heightKey key (height + 1)) =
        some (heightKey key (Nat.find changed), operation) := by
      apply seekForward_of_least
      · exact (represents.historyMatches.duplicates _ _ _).mpr ⟨key, _, rfl, firstLive, operationEq⟩
      · exact (heightKey_le_heightKey_iff key nextBounded firstBounded).mpr after
      · intro found present atOrAfter
        obtain ⟨entry, present⟩ := Option.isSome_iff_exists.mp (lookup_isSome.mpr present)
        obtain ⟨key', height', rfl, live', undone', length'⟩ := represents.entry present
        have bounded' := represents.lt_of_live live'
        by_cases same : key' = key
        · -- an entry of the key at a later height comes no earlier than the first one
          subst same
          have later := (heightKey_le_heightKey_iff _ nextBounded bounded').mp atOrAfter
          have least : Nat.find changed ≤ height' :=
            Nat.find_min' changed ⟨by omega, live'.2, by simp [undone']⟩
          exact (heightKey_le_heightKey_iff _ firstBounded bounded').mpr least
        · -- an entry of another key at or after this one belongs to a greater key
          have sameLength : key.length = key'.length := length.trans length'.symm
          have greater : key < key' :=
            (heightKey_le_heightKey_iff_of_ne sameLength (Ne.symm same) _ _).mp atOrAfter
          exact (heightKey_le_heightKey_iff_of_ne sameLength (Ne.symm same) _ _).mpr greater
    have restored : operation.value = (snapshots.state (Nat.find changed - 1)).lookup column key :=
      value_of_undo_eq_some operationEq
    have kept : (snapshots.state (Nat.find changed - 1)).lookup column key =
        (snapshots.state height).lookup column key := by
      refine snapshots.lookup_eq_of_unchanged (by omega) fun other after' below' => ?_
      by_contra changedThere
      exact Nat.find_min changed (by omega) ⟨after', by omega, changedThere⟩
    simp only [ViewAtHeight.get, seek, length_heightKey, Nat.le_add_right, if_true,
      take_heightKey, restored, kept]
  · -- no later height changed the key: the original columns hold its value
    simp only [not_exists, not_and, not_not] at changed
    have kept : (snapshots.state snapshots.latest).lookup column key =
        (snapshots.state height).lookup column key :=
      snapshots.lookup_eq_of_unchanged below changed
    simp only [ViewAtHeight.get]
    cases seek : (db.duplicates column).seekForward (heightKey key (height + 1)) with
    | none => rw [represents.original, kept]
    | some entry =>
        obtain ⟨found, operation⟩ := entry
        obtain ⟨present, atOrAfter, -⟩ := seekForward_eq_some seek
        obtain ⟨key', height', rfl, live', undone', length'⟩ := represents.entry present
        have different : key' ≠ key := by
          rintro rfl
          have later := (heightKey_le_heightKey_iff _ nextBounded (represents.lt_of_live live')).mp
            atOrAfter
          simp [changed height' (by omega) live'.2] at undone'
        have sameLength : key.length = key'.length := length.trans length'.symm
        have other : (heightKey key' height').take key'.length ≠ key := by
          rw [take_heightKey]
          exact different
        simp only [length_heightKey, sameLength, Nat.le_add_right, if_true, other, if_false,
          represents.original, kept]

theorem view (nonempty : snapshots.lowest ≤ snapshots.latest) {height : ℕ}
    (above : snapshots.lowest ≤ height + 1) (below : height ≤ snapshots.latest) :
    ∃ view, db.createViewAt height = .ok view ∧
      ∀ column key, key.length = keyLength column →
        view.get key column = some ((snapshots.state height).lookup column key) := by
  have next : min (height + 1) u64Max = height + 1 :=
    min_eq_left (by have := represents.bounded; omega)
  -- the next height is live, or the view is at the latest height, which is live
  have recorded : (db.history.lookup (height + 1)).isSome ∨ (db.history.lookup height).isSome := by
    rcases Nat.lt_or_ge height snapshots.latest with lower | top
    · exact .inl ((represents.historyMatches.history _).mpr ⟨above, lower⟩)
    · exact .inr ((represents.historyMatches.history _).mpr ⟨by omega, below⟩)
  refine ⟨⟨height + 1, db⟩, ?_, fun column key length => represents.get above below length⟩
  unfold HistoricalRocksDb.createViewAt
  dsimp only
  rw [next, if_pos recorded]

/-- `cleanup_old_changes` before the commit of the next height drops the lowest live height
exactly when the window is full. -/
theorem cleanup :
    HistoryMatches (db.cleanupOldChanges (snapshots.latest + 1))
      (fun height => lowestAfterCommit policy snapshots.lowest (snapshots.latest + 1) ≤ height ∧
        height ≤ snapshots.latest) snapshots.undoAt := by
  have bounded : ∀ height, snapshots.Live height → height < 2 ^ 64 :=
    fun _ live => represents.lt_of_live live
  have policyEq := represents.rewindPolicy
  unfold HistoricalRocksDb.cleanupOldChanges
  split
  · next _ noRewind => exact absurd (policyEq.symm.trans noRewind) represents.rewinds
  · next _ fullRange =>
      obtain rfl : policy = .rewindFullRange := policyEq.symm.trans fullRange
      exact represents.historyMatches
  · next _ size range =>
      obtain rfl : policy = .rewindRange size := policyEq.symm.trans range
      have sized := represents.sized size rfl
      have positive := size.pos
      have lowestPositive := represents.lowestPositive
      dsimp only
      cases found : db.history.lookup (snapshots.latest + 1 - size) with
      | none =>
          -- the height `size` below the new one is below the window, which has room
          have notLive : ¬ snapshots.Live (snapshots.latest + 1 - size) := fun live =>
            absurd ((represents.historyMatches.history _).mpr live) (by rw [found]; simp)
          refine represents.historyMatches.congr (fun height => ?_) fun _ _ => rfl
          simp only [lowestAfterCommit, Snapshots.Live] at notLive ⊢
          constructor <;> intro <;> omega
      | some oldChanges =>
          -- the window is full and loses its lowest height
          have live : snapshots.Live (snapshots.latest + 1 - size) :=
            (represents.historyMatches.history _).mp (by simp [found])
          refine (represents.historyMatches.drop bounded found).congr (fun height => ?_)
            fun _ _ => rfl
          simp only [lowestAfterCommit, Snapshots.Live] at live ⊢
          constructor <;> intro <;> omega

theorem le_lowestAfterCommit :
    snapshots.lowest ≤ lowestAfterCommit policy snapshots.lowest (snapshots.latest + 1) := by
  cases policy <;> simp [lowestAfterCommit]

theorem lowestAfterCommit_le :
    lowestAfterCommit policy snapshots.lowest (snapshots.latest + 1) ≤ snapshots.latest + 1 := by
  have window := represents.window
  cases policy with
  | rewindRange size =>
      have positive := size.pos
      simp only [lowestAfterCommit]
      omega
  | _ => exact window

theorem commit (changes : Changes) (writes : (RewindCall.commit changes).WritesKeysOf keyLength)
    (room : snapshots.latest + 3 ≤ u64Max) :
    Represents policy keyLength (db.commitChanges (some (snapshots.latest + 1)) changes)
      (snapshots.commit policy changes) := by
  have cleaned := represents.cleanup
  have rewinds : db.stateRewindPolicy ≠ .noRewind := represents.rewindPolicy ▸ represents.rewinds
  have fresh : (db.cleanupOldChanges (snapshots.latest + 1)).history.lookup
      (snapshots.latest + 1) = none := by
    rw [← Option.not_isSome_iff_eq_none, cleaned.history]
    exact fun live => absurd live.2 (by omega)
  have added := cleaned.add (fun _ live => lt_of_le_u64Max (by have := live.2; omega))
    (lt_of_le_u64Max (show snapshots.latest + 1 ≤ u64Max by omega))
    (fun live => absurd live.2 (by omega))
    (db.reverseHistoryChanges changes)
  have lowestAbove := represents.le_lowestAfterCommit
  have lowestBelow := represents.lowestAfterCommit_le
  rw [HistoricalRocksDb.commitChanges_of_rewinds _ rewinds,
    HistoricalRocksDb.storeModificationsHistory_of_fresh _ rewinds fresh]
  constructor
  · simp [represents.rewindPolicy]
  · exact represents.rewinds
  · simp [Snapshots.commit, represents.original]
  · exact represents.lowestPositive.trans lowestAbove
  · exact lowestBelow.trans (Nat.le_succ _)
  · exact room
  · intro size range
    subst range
    simp only [Snapshots.commit, lowestAfterCommit]
    omega
  · -- the heights below keep their undo, and the new one undoes the changes
    refine (added.withOriginal _).congr (fun height => ?_) fun height live => ?_
    · simp only [Snapshots.Live, Snapshots.commit]
      constructor <;> intro <;> omega
    · rcases live with below | rfl
      · rw [Function.update_of_ne (by omega)]
        exact snapshots.undoAt_commit_of_le policy changes below.2
      · rw [Function.update_self, Snapshots.undoAt_commit_self, ← represents.original]
        funext column key
        exact (HistoricalRocksDb.getFromChanges_reverseHistoryChanges _ _ _ _).symm
  · intro height live column key undone
    simp only [Snapshots.Live, Snapshots.commit] at live
    rcases Nat.lt_or_ge height (snapshots.latest + 1) with old | new
    · rw [Snapshots.undoAt_commit_of_le _ _ _ (by omega)] at undone
      exact represents.keyLength height ⟨lowestAbove.trans live.1, by omega⟩ column key undone
    · obtain rfl : height = snapshots.latest + 1 := by omega
      rw [Snapshots.undoAt_commit_self] at undone
      apply writes column key
      intro missing
      exact undone (undo_eq_none_iff.mpr (KvMap.lookup_overlay_of_missing missing).symm)

theorem rollback (nonempty : snapshots.lowest ≤ snapshots.latest) :
    ∃ rolledBack, db.rollbackBlockTo snapshots.latest = .ok rolledBack ∧
      Represents policy keyLength rolledBack snapshots.rollback := by
  obtain ⟨lastChanges, found⟩ := Option.isSome_iff_exists.mp
    ((represents.historyMatches.history _).mpr ⟨nonempty, le_rfl⟩)
  have dropped := represents.historyMatches.drop (fun _ live => represents.lt_of_live live) found
  have restored : db.original.overlay lastChanges = snapshots.state (snapshots.latest - 1) := by
    apply overlay_undo
    intro column key
    rw [represents.historyMatches.reverse _ _ found, represents.original]
    rfl
  have rolledBack : snapshots.rollback = { snapshots with latest := snapshots.latest - 1 } :=
    if_pos nonempty
  have lowestPositive := represents.lowestPositive
  have bounded := represents.bounded
  refine ⟨_, HistoricalRocksDb.rollbackBlockTo_of_found _ found, ?_⟩
  rw [rolledBack]
  constructor
  · exact represents.rewindPolicy
  · exact represents.rewinds
  · exact restored
  · exact lowestPositive
  · change snapshots.lowest ≤ snapshots.latest - 1 + 1
    omega
  · change snapshots.latest - 1 + 2 ≤ u64Max
    omega
  · intro size range
    have sized := represents.sized size range
    change snapshots.latest - 1 + 1 ≤ snapshots.lowest + size
    omega
  · refine (dropped.withOriginal _).congr (fun height => ?_) fun _ _ => rfl
    simp only [Snapshots.Live]
    constructor <;> intro <;> omega
  · intro height live
    have below : height ≤ snapshots.latest - 1 := live.2
    exact represents.keyLength height ⟨live.1, by omega⟩

theorem rollbackBlockTo_of_empty (empty : snapshots.latest < snapshots.lowest) :
    db.rollbackBlockTo snapshots.latest = .error .notFound := by
  apply HistoricalRocksDb.rollbackBlockTo_of_missing
  rw [← Option.not_isSome_iff_eq_none, represents.historyMatches.history]
  exact fun live => absurd live.1 (by omega)

end Represents

theorem Represents.step {policy : StateRewindPolicy} {keyLength : Nat → Nat} {state : RewindState}
    {snapshots : Snapshots} (represents : Represents policy keyLength state.db snapshots)
    (latest : state.latest = snapshots.latest) (call : RewindCall)
    (writes : call.WritesKeysOf keyLength) (room : snapshots.latest + 3 ≤ u64Max) :
    Represents policy keyLength (RewindCall.run state call).db (snapshots.step policy call) ∧
      (RewindCall.run state call).latest = (snapshots.step policy call).latest := by
  cases call with
  | commit changes =>
      have ran : RewindCall.run state (.commit changes) =
          ⟨state.db.commitChanges (some (snapshots.latest + 1)) changes, snapshots.latest + 1⟩ := by
        rw [← latest]
        rfl
      rw [ran]
      exact ⟨represents.commit changes writes room, rfl⟩
  | rollback =>
      by_cases nonempty : snapshots.lowest ≤ snapshots.latest
      · obtain ⟨rolledBack, rolled, represents'⟩ := represents.rollback nonempty
        have dropped : snapshots.rollback = { snapshots with latest := snapshots.latest - 1 } :=
          if_pos nonempty
        have ran : RewindCall.run state .rollback = ⟨rolledBack, snapshots.latest - 1⟩ := by
          simp only [RewindCall.run, latest, rolled]
        rw [ran]
        exact ⟨represents', by rw [Snapshots.step, dropped]⟩
      · -- an empty window: the rollback fails and changes nothing
        have missing := represents.rollbackBlockTo_of_empty (by omega)
        have kept : snapshots.rollback = snapshots := if_neg nonempty
        have ran : RewindCall.run state .rollback = state := by
          simp only [RewindCall.run, latest, missing]
        rw [ran, Snapshots.step, kept]
        exact ⟨represents, latest⟩

theorem Represents.run {policy : StateRewindPolicy} {keyLength : Nat → Nat} (calls : List RewindCall) :
    ∀ {state : RewindState} {snapshots : Snapshots},
      Represents policy keyLength state.db snapshots → state.latest = snapshots.latest →
      (∀ call ∈ calls, call.WritesKeysOf keyLength) →
      snapshots.latest + calls.length + 2 ≤ u64Max →
      Represents policy keyLength (runRewindCalls state calls).db (snapshots.run policy calls) ∧
        (runRewindCalls state calls).latest = (snapshots.run policy calls).latest := by
  induction calls with
  | nil =>
      intro state snapshots represents latest _ _
      exact ⟨represents, latest⟩
  | cons call calls induction =>
      intro state snapshots represents latest writes room
      simp only [List.length_cons] at room
      obtain ⟨represents', latest'⟩ :=
        represents.step latest call (writes call List.mem_cons_self) (by omega)
      have grows := snapshots.latest_step_le policy call
      exact induction represents' latest' (fun call' member => writes call' (List.mem_cons_of_mem _ member))
        (by omega)

theorem Snapshots.lowest_run_of_rewindFullRange (calls : List RewindCall) :
    ∀ snapshots : Snapshots, (snapshots.run .rewindFullRange calls).lowest = snapshots.lowest := by
  induction calls with
  | nil => exact fun _ => rfl
  | cons call calls induction =>
      intro snapshots
      refine (induction _).trans ?_
      cases call with
      | commit changes => rfl
      | rollback =>
          change snapshots.rollback.lowest = _
          unfold rollback
          split_ifs <;> rfl

theorem Snapshots.lowest_run_of_commits (size : ℕ+) (calls : List RewindCall)
    (commits : RewindCall.rollback ∉ calls) :
    ∀ (snapshots : Snapshots) (base : ℕ),
      snapshots.lowest = max base (snapshots.latest + 1 - size) →
      (snapshots.run (.rewindRange size) calls).lowest =
        max base ((snapshots.run (.rewindRange size) calls).latest + 1 - size) := by
  induction calls with
  | nil => exact fun _ _ lowest => lowest
  | cons call calls induction =>
      intro snapshots base lowest
      obtain ⟨notRollback, rest⟩ := not_or.mp fun listed => commits (List.mem_cons.mpr listed)
      cases call with
      | rollback => exact absurd rfl notRollback
      | commit changes =>
          apply induction rest
          change max snapshots.lowest (snapshots.latest + 1 + 1 - size) =
            max base (snapshots.latest + 1 + 1 - size)
          omega

/-- The state rewind of a database that starts at height `start` and keeps every key of a
column at one length: after any run of commits of the next height and rollbacks of the latest
one, the original columns hold the latest snapshot; a view at any height of the window, or
just below it, reads that height's snapshot; a rollback restores the snapshot below the latest;
under `RewindFullRange` the window reaches down to the first committed height, and under
`RewindRange { size }` with commits only it holds the last `size` heights. -/
theorem rewinding_database_refines_snapshots (policy : StateRewindPolicy)
    (rewinds : policy ≠ .noRewind) (keyLength : Nat → Nat) (original : KvMap) (start : ℕ)
    (calls : List RewindCall) (writes : ∀ call ∈ calls, call.WritesKeysOf keyLength)
    (room : start + calls.length + 2 ≤ u64Max) :
    let final := runRewindCalls ⟨HistoricalRocksDb.new original policy, start⟩ calls
    let snapshots := (Snapshots.start start original).run policy calls
    final.latest = snapshots.latest ∧
    final.db.original = snapshots.state snapshots.latest ∧
    (∀ height, snapshots.lowest ≤ height + 1 → height ≤ snapshots.latest →
      snapshots.lowest ≤ snapshots.latest →
      ∃ view, final.db.createViewAt height = .ok view ∧
        ∀ column key, key.length = keyLength column →
          view.get key column = some ((snapshots.state height).lookup column key)) ∧
    (snapshots.lowest ≤ snapshots.latest →
      ∃ rolledBack, final.db.rollbackBlockTo final.latest = .ok rolledBack ∧
        rolledBack.original = snapshots.state (snapshots.latest - 1)) ∧
    (policy = .rewindFullRange → snapshots.lowest = start + 1) ∧
    (∀ size, policy = .rewindRange size → RewindCall.rollback ∉ calls →
      snapshots.lowest = max (start + 1) (snapshots.latest + 1 - size)) := by
  intro final snapshots
  have initial := represents_start rewinds keyLength original
    (show start + 2 ≤ u64Max by omega)
  obtain ⟨represents, latest⟩ := @Represents.run policy keyLength calls
    ⟨HistoricalRocksDb.new original policy, start⟩ (Snapshots.start start original) initial rfl
    writes (by simpa [Snapshots.start] using room)
  refine ⟨latest, represents.original, fun height above below nonempty =>
    represents.view nonempty above below, fun nonempty => ?_, fun fullRange => ?_,
    fun size range commits => ?_⟩
  · obtain ⟨rolledBack, rolled, represents'⟩ := represents.rollback nonempty
    have dropped : snapshots.rollback = { snapshots with latest := snapshots.latest - 1 } :=
      if_pos nonempty
    refine ⟨rolledBack, latest ▸ rolled, ?_⟩
    rw [represents'.original, dropped]
  · subst fullRange
    exact Snapshots.lowest_run_of_rewindFullRange calls _
  · subst range
    exact Snapshots.lowest_run_of_commits size calls commits _ _
      (by simp only [Snapshots.start]; omega)

/-- Column 0 holding `[5]` under the one-byte key `[1]`. -/
def fiveAtOne : KvMap :=
  KvMap.set ⟨fun _ _ => none⟩ 0 [1] (some [5])

/-- Two commits, of `[1]` to `[7]` and of `[2]` to `[8]` in column 0, and a rollback of the
second. -/
def commitsThenRollback : List RewindCall :=
  [.commit ((∅ : Changes).insert 0 ((∅ : ColumnChanges).insert [1] (.insert [7]))),
    .commit ((∅ : Changes).insert 0 ((∅ : ColumnChanges).insert [2] (.insert [8]))),
    .rollback]

theorem rewinding_database_refines_snapshots_after_rollback :
    StateRewindPolicy.rewindFullRange ≠ .noRewind ∧
      (∀ call ∈ commitsThenRollback, call.WritesKeysOf fun _ => 1) ∧
      3 + commitsThenRollback.length + 2 ≤ u64Max ∧
      (runRewindCalls ⟨HistoricalRocksDb.new fiveAtOne .rewindFullRange, 3⟩
        commitsThenRollback).latest = 4 ∧
      (runRewindCalls ⟨HistoricalRocksDb.new fiveAtOne .rewindFullRange, 3⟩
        commitsThenRollback).db.original.lookup 0 [1] = some [7] ∧
      (runRewindCalls ⟨HistoricalRocksDb.new fiveAtOne .rewindFullRange, 3⟩
        commitsThenRollback).db.original.lookup 0 [2] = none ∧
      ∃ view, (runRewindCalls ⟨HistoricalRocksDb.new fiveAtOne .rewindFullRange, 3⟩
          commitsThenRollback).db.createViewAt 3 = .ok view ∧ view.get [1] 0 = some (some [5]) := by
  have writes : ∀ call ∈ commitsThenRollback, call.WritesKeysOf fun _ => 1 := by
    intro call member
    simp only [commitsThenRollback, List.mem_cons, List.mem_nil_iff, or_false] at member
    rcases member with rfl | rfl | rfl
    · exact writesKeysOf_single _ rfl
    · exact writesKeysOf_single _ rfl
    · trivial
  obtain ⟨latest, original, views, -, -, -⟩ := rewinding_database_refines_snapshots
    .rewindFullRange (by decide) (fun _ => 1) fiveAtOne 3 commitsThenRollback writes (by decide)
  have snapshotLatest :
      ((Snapshots.start 3 fiveAtOne).run .rewindFullRange commitsThenRollback).latest = 4 := by
    decide
  obtain ⟨view, created, reads⟩ := views 3 (by decide) (by decide) (by decide)
  refine ⟨by decide, writes, by decide, latest.trans snapshotLatest, ?_, ?_, view, created, ?_⟩
  · rw [original, snapshotLatest]
    decide
  · rw [original, snapshotLatest]
    decide
  · rw [reads 0 [1] rfl]
    decide

/-! ## A rollback to the first height -/

/-- One write to column 0: the one-byte key `[1]` set to `[9]`. -/
def oneWrite : Changes :=
  (∅ : Changes).insert 0 ((∅ : ColumnChanges).insert [1] (.insert [9]))

/-- A database with nothing in it at height 0, rewinding the full range. -/
def emptyAtZero : RewindState :=
  ⟨HistoricalRocksDb.new ⟨fun _ _ => none⟩ .rewindFullRange, 0⟩

/-- After a commit at height 1 and its rollback the database is back at height 0, but no
history answers a view at 0; and after the commit alone, a view at 0 of a key longer than the
written one slices past the end of the duplicate key it finds. -/
theorem rewind_to_first_height_loses_its_view :
    (runRewindCalls emptyAtZero [.commit oneWrite, .rollback]).latest = 0 ∧
    (runRewindCalls emptyAtZero [.commit oneWrite, .rollback]).db.createViewAt 0 =
      .error (.noHistoryForRequestedHeight 0) ∧
    ∃ view, (runRewindCalls emptyAtZero [.commit oneWrite]).db.createViewAt 0 = .ok view ∧
      view.get (List.replicate 10 0) 0 = none :=
  ⟨rfl, rfl, _, rfl, by decide⟩

/-! ## A list of changes at one height -/

/-- Two elements of a list that write different keys of column 0. -/
def sameColumnList : List Changes :=
  [(∅ : Changes).insert 0 ((∅ : ColumnChanges).insert [1] (.insert [1])),
    (∅ : Changes).insert 0 ((∅ : ColumnChanges).insert [2] (.insert [2]))]

/-- Committed at a height that keeps history, the list loses the first element's write,
which RocksDB keeps when it commits the same list. -/
theorem changes_list_commit_drops_earlier_writes_to_a_column :
    (∃ db, (HistoricalRocksDb.new ⟨fun _ _ => none⟩ .rewindFullRange).commitStorageChanges
        (some 1) (.changesList sameColumnList) = .ok db ∧ db.original.lookup 0 [1] = none) ∧
    ∃ original, rocksDbCommitChanges ⟨fun _ _ => none⟩ (.changesList sameColumnList) = .ok original ∧
      original.lookup 0 [1] = some [1] :=
  ⟨⟨_, rfl, rfl⟩, _, rfl, rfl⟩

end FuelCore.Storage
