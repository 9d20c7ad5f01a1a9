import FuelCore.Sync.State

/-! # The sync status follows the highest commit

Whatever the importer reports, in whatever order, the status of the sync state says where
the highest height committed so far stands: nothing is committed while it is
`Uninitialized`, `Committed` names that height, and a range being processed is non-empty and
starts right above it. Each call keeps this relation, with the highest height raised by a
commit; `State::new` starts in it.
-/

namespace FuelCore.Sync

/-- The highest height committed so far, after one more call. -/
def Call.raise (highest : Option UInt32) : Call → Option UInt32
  | .commit height =>
      match highest with
      | some highest => some (if highest < height then height else highest)
      | none => some height
  | .observe _ | .failedToProcess _ => highest

/-- The highest height committed: the initial one, or a later commit's argument. -/
def highestCommitted (committed : Option UInt32) (calls : List Call) : Option UInt32 :=
  calls.foldl Call.raise committed

theorem highestCommitted_append (committed : Option UInt32) (calls more : List Call) :
    highestCommitted committed (calls ++ more) =
      highestCommitted (highestCommitted committed calls) more :=
  List.foldl_append

/-- The height right above the highest commit, `0` with nothing committed. -/
def firstUncommitted : Option UInt32 → ℕ
  | some highest => highest.toNat + 1
  | none => 0

/-- What a status says of the highest committed height. -/
def Tracks (highest : Option UInt32) : Status → Prop
  | .uninitialized => highest = none
  | .committed height => highest = some height
  | .processing range => range.isEmpty = false ∧ range.start.toNat = firstUncommitted highest

section Raise

variable {highest : Option UInt32} {height : UInt32}

theorem raise_of_lt_firstUncommitted (below : height.toNat < firstUncommitted highest) :
    (Call.commit height).raise highest = highest := by
  cases highest with
  | none => exact absurd below (Nat.not_lt_zero _)
  | some highest =>
      have notAbove : ¬highest < height := by
        rw [UInt32.lt_iff_toNat_lt]
        exact Nat.not_lt.mpr (Nat.le_of_lt_succ below)
      simp only [Call.raise, notAbove, if_false]

theorem raise_of_firstUncommitted_le (above : firstUncommitted highest ≤ height.toNat) :
    (Call.commit height).raise highest = some height := by
  cases highest with
  | none => rfl
  | some highest =>
      have raised : highest < height := UInt32.lt_iff_toNat_lt.mpr above
      simp only [Call.raise, raised, if_true]

theorem le_raise {below : UInt32} (call : Call) (raised : highest = some below) :
    ∃ top, call.raise highest = some top ∧ below ≤ top := by
  subst raised
  cases call with
  | commit height =>
      by_cases above : below < height
      · exact ⟨height, by simp only [Call.raise, above, if_true], UInt32.le_of_lt above⟩
      · exact ⟨below, by simp only [Call.raise, above, if_false], UInt32.le_refl below⟩
  | observe _ | failedToProcess _ => exact ⟨below, rfl, UInt32.le_refl below⟩

theorem le_highestCommitted {below : UInt32} (calls : List Call)
    (raised : highest = some below) :
    ∃ top, highestCommitted highest calls = some top ∧ below ≤ top := by
  induction calls generalizing highest below with
  | nil => exact ⟨below, raised, UInt32.le_refl below⟩
  | cons call calls induction =>
      obtain ⟨middle, raisedOnce, lower⟩ := le_raise call raised
      obtain ⟨top, raisedAll, upper⟩ := induction raisedOnce
      exact ⟨top, raisedAll, UInt32.le_trans lower upper⟩

end Raise

/-! ## Each call keeps the relation -/

section Calls

variable {highest : Option UInt32}

theorem tracks_revert {start : UInt32} (first : start.toNat = firstUncommitted highest) :
    Tracks highest ((start.checkedSub 1).elim .uninitialized .committed) := by
  cases highest with
  | none =>
      have none : start.checkedSub 1 = none := UInt32.checkedSub_eq_none_iff.mpr (by
        rw [first, firstUncommitted, UInt32.toNat_one]
        exact Nat.zero_lt_one)
      rw [none]
      rfl
  | some highest =>
      have previous : start.checkedSub 1 = some highest := UInt32.checkedSub_eq_some_iff.mpr (by
        rw [first, firstUncommitted, UInt32.toNat_one]
        omega)
      rw [previous]
      rfl

theorem Tracks.commit {state : State} (height : UInt32) (tracks : Tracks highest state.status) :
    Tracks ((Call.commit height).raise highest) (state.commit height).status := by
  obtain ⟨status⟩ := state
  cases status with
  | uninitialized =>
      obtain rfl : highest = none := tracks
      exact rfl
  | committed existing =>
      obtain rfl : highest = some existing := tracks
      by_cases above : existing < height
      · have raised : firstUncommitted (some existing) ≤ height.toNat :=
          UInt32.lt_iff_toNat_lt.mp above
        rw [raise_of_firstUncommitted_le raised]
        simp only [State.commit, above, if_true, State.applyStatus, Tracks]
      · rw [raise_of_lt_firstUncommitted (Nat.lt_succ_of_le
          (Nat.not_lt.mp (mt UInt32.lt_iff_toNat_lt.mpr above)))]
        simp only [State.commit, above, if_false, State.applyStatus, Tracks]
  | processing range =>
      obtain ⟨nonempty, first⟩ := tracks
      rw [RangeInclusive.isEmpty_eq_false_iff] at nonempty
      by_cases lagging : height < range.start
      · have below := UInt32.lt_iff_toNat_lt.mp lagging
        rw [raise_of_lt_firstUncommitted (first ▸ below)]
        simp only [State.commit, lagging, if_true, State.applyStatus]
        exact ⟨RangeInclusive.isEmpty_eq_false_iff _ |>.mpr nonempty, first⟩
      · have above : firstUncommitted highest ≤ height.toNat :=
          first ▸ Nat.not_lt.mp (mt UInt32.lt_iff_toNat_lt.mpr lagging)
        rw [raise_of_firstUncommitted_le above]
        by_cases inside : height < range.stop
        · -- the commit moves the start of the range to just above it
          have fits := UInt32.lt_iff_toNat_lt.mp inside
          have next : (height.saturatingAdd 1).toNat = height.toNat + 1 := by
            rw [UInt32.toNat_saturatingAdd, UInt32.toNat_one]
            have sizeEq : UInt32.size = 2 ^ 32 := rfl
            have stopFits := range.stop.toNat_lt
            omega
          simp only [State.commit, lagging, inside, if_true, if_false, State.applyStatus, Tracks,
            RangeInclusive.isEmpty_eq_false_iff, next, firstUncommitted, and_true]
          omega
        · simp only [State.commit, lagging, inside, if_false, State.applyStatus, Tracks]

theorem Tracks.observe {state : State} (height : UInt32) (tracks : Tracks highest state.status) :
    Tracks highest (state.observe height).1.status := by
  obtain ⟨status⟩ := state
  cases status with
  | uninitialized =>
      obtain rfl : highest = none := tracks
      simp [State.observe, State.applyStatus, Tracks, firstUncommitted]
  | processing range =>
      obtain ⟨nonempty, first⟩ := tracks
      rw [RangeInclusive.isEmpty_eq_false_iff] at nonempty
      by_cases longer : range.stop < height
      · have beyond := UInt32.lt_iff_toNat_lt.mp longer
        simp only [State.observe, longer, if_true, State.applyStatus, Tracks,
          RangeInclusive.isEmpty_eq_false_iff, first, and_true]
        omega
      · simp only [State.observe, longer, if_false, State.applyStatus]
        exact ⟨RangeInclusive.isEmpty_eq_false_iff _ |>.mpr nonempty, first⟩
  | committed committed =>
      obtain rfl : highest = some committed := tracks
      cases next : committed.checkedAdd 1 with
      | none => simp only [State.observe, next, Option.bind_none, State.applyStatus, Tracks]
      | some next' =>
          obtain ⟨-, following⟩ := UInt32.checkedAdd_eq_some_iff.mp next
          by_cases gap : (⟨next', height⟩ : RangeInclusive).isEmpty
          · simp only [State.observe, next, Option.bind_some, gap, Bool.not_true,
              Bool.false_eq_true, if_false, State.applyStatus, Tracks]
          · simp only [Bool.not_eq_true] at gap
            simp only [State.observe, next, Option.bind_some, gap, Bool.not_false, if_true,
              State.applyStatus, Tracks, firstUncommitted, following, UInt32.toNat_one, and_self]

/-- A failure inside the range being processed either reverts to before the range, or cuts the
range short before the failure; the cut range is non-empty, since the failure then starts
strictly above the range's start. -/
theorem Tracks.failedToProcess {state : State} (range : RangeInclusive)
    (tracks : Tracks highest state.status) :
    Tracks highest (state.failedToProcess range).status := by
  obtain ⟨status⟩ := state
  cases empty : range.isEmpty
  case true => simpa only [State.failedToProcess, empty, ↓reduceIte, State.applyStatus] using tracks
  cases status with
  | uninitialized | committed _ =>
      simpa only [State.failedToProcess, empty, Bool.false_eq_true, ↓reduceIte,
        State.applyStatus] using tracks
  | processing processing =>
      obtain ⟨nonempty, first⟩ := tracks
      cases fromStart : range.contains processing.start
      case true =>
        simp only [State.failedToProcess, empty, fromStart, Bool.false_eq_true, ↓reduceIte,
          State.applyStatus]
        exact tracks_revert first
      cases overlaps : range.contains processing.stop || processing.contains range.start
      case true =>
        have later : processing.start.toNat < range.start.toNat := by
          rw [← Bool.not_eq_true, RangeInclusive.contains_iff] at fromStart
          rw [Bool.or_eq_true, RangeInclusive.contains_iff, RangeInclusive.contains_iff] at overlaps
          rw [RangeInclusive.isEmpty_eq_false_iff] at empty nonempty
          omega
        obtain ⟨prev, previous, below⟩ : ∃ prev, range.start.checkedSub 1 = some prev ∧
            prev.toNat = range.start.toNat - 1 := by
          cases sub : range.start.checkedSub 1 with
          | none =>
              rw [UInt32.checkedSub_eq_none_iff, UInt32.toNat_one] at sub
              omega
          | some prev =>
              rw [UInt32.checkedSub_eq_some_iff, UInt32.toNat_one] at sub
              exact ⟨prev, rfl, sub.2⟩
        simp only [State.failedToProcess, empty, fromStart, overlaps, previous, Bool.false_eq_true,
          ↓reduceIte, Option.elim_some, State.applyStatus, Tracks,
          RangeInclusive.isEmpty_eq_false_iff, first, and_true]
        omega
      cases withinEnd : processing.contains range.stop
      case true =>
        simp only [State.failedToProcess, empty, fromStart, overlaps, withinEnd,
          Bool.false_eq_true, ↓reduceIte, State.applyStatus]
        exact tracks_revert first
      simp only [State.failedToProcess, empty, fromStart, overlaps, withinEnd, Bool.false_eq_true,
        ↓reduceIte, State.applyStatus]
      exact ⟨nonempty, first⟩

theorem Tracks.run {state : State} (call : Call) (tracks : Tracks highest state.status) :
    Tracks (call.raise highest) (call.run state).status := by
  cases call with
  | commit height => exact tracks.commit height
  | observe height => exact tracks.observe height
  | failedToProcess range => exact tracks.failedToProcess range

theorem Tracks.runCalls {state : State} (calls : List Call) (tracks : Tracks highest state.status) :
    Tracks (highestCommitted highest calls) (runCalls state calls).status := by
  induction calls generalizing state highest with
  | nil => exact tracks
  | cons call calls induction => exact induction (tracks.run call)

end Calls

theorem tracks_new (committed observed : Option UInt32) :
    Tracks committed (State.new committed observed).status := by
  cases committed with
  | none =>
      cases observed with
      | none => rfl
      | some observed => simp [State.new, Tracks, firstUncommitted]
  | some committed =>
      cases observed with
      | none => rfl
      | some observed =>
          cases next : committed.checkedAdd 1 with
          | none => simp only [State.new, next, Tracks]
          | some next' =>
              obtain ⟨-, following⟩ := UInt32.checkedAdd_eq_some_iff.mp next
              by_cases gap : (⟨next', observed⟩ : RangeInclusive).isEmpty
              · simp only [State.new, next, gap, if_true, Tracks]
              · simp only [Bool.not_eq_true] at gap
                simp only [State.new, next, gap, Bool.false_eq_true, if_false, Tracks,
                  firstUncommitted, following, UInt32.toNat_one, and_self]

/-- Starting from any `State::new`, in every reachable state the status follows the highest
commit, and a committed status never goes down. -/
theorem sync_status_tracks_highest_commit (committed observed : Option UInt32)
    (calls : List Call) :
    Tracks (highestCommitted committed calls) (runCalls (State.new committed observed) calls).status ∧
      ∀ (more : List Call) (low high : UInt32),
        (runCalls (State.new committed observed) calls).status = .committed low →
        (runCalls (State.new committed observed) (calls ++ more)).status = .committed high →
        low ≤ high := by
  have tracking := fun calls => (tracks_new committed observed).runCalls calls
  refine ⟨tracking calls, fun more low high atLow atHigh => ?_⟩
  have lowTracks : highestCommitted committed calls = some low := by
    simpa only [atLow, Tracks] using tracking calls
  have highTracks : highestCommitted committed (calls ++ more) = some high := by
    simpa only [atHigh, Tracks] using tracking (calls ++ more)
  obtain ⟨top, raised, lower⟩ := le_highestCommitted more lowTracks
  rw [highestCommitted_append, raised] at highTracks
  exact Option.some_inj.mp highTracks ▸ lower

end FuelCore.Sync
