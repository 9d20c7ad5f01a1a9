import FuelCore.Importer.Importer

/-! # One block per successful import, and nothing from a failed one

Every check of the importer and of `commit_changes_with_height_update` comes before
the single write of a call, and that write applies all the changes or none. So a
call that fails leaves the database as it was; a call that succeeds has passed every
check, and the checks together say that it committed its block, and only that block,
at the height after the database's latest one.
-/

namespace FuelCore.Importer

/-- What a successful call leaves behind: its block at the height after the latest
block of the database (or a genesis block into a database without blocks), linked to
the database's height; the committed changes store the block, hold no other new
block height, and come with execution changes that leave the block root alone. -/
structure CommitsNextBlock (before : Database) (block : SealedBlock) (after : Database) :
    Prop where
  nextHeight : (block.consensus = .genesis ∧ latestBlockHeight before.store = none) ∨
    (block.consensus = .poa ∧ ∃ last, latestBlockHeight before.store = some last ∧
      last + 1 = block.height)
  linked : after.height = some block.height ∧
    (before.height = none ∨ ∃ previous, before.height = some previous ∧
      previous + 1 = block.height)
  committed : ∃ blockChanges executionChanges : Changes,
    blockChanges.lookup (DbKey.fuelBlocks block.height) = some (some block.blockId) ∧
    newHeights [blockChanges, executionChanges] = [block.height] ∧
    transactionLatestBlockRoot before.store executionChanges = latestBlockRoot before.store ∧
    after.store = applyChangesList before.store
      [blockChanges, executionChanges, metadataChanges block.height]

/-! ## The commit of the database -/

section Database

variable (database : Database) (list : List Changes) (written : Bool)

theorem writeChanges_error {newHeight : Option Nat} {error : DatabaseError}
    (failed : (writeChanges database newHeight list written).2 = .error error) :
    (writeChanges database newHeight list written).1 = database := by
  unfold writeChanges at failed ⊢
  split_ifs at failed ⊢
  all_goals simp_all

theorem writeChanges_ok {newHeight : Option Nat}
    (succeeded : (writeChanges database newHeight list written).2 = .ok ()) :
    (writeChanges database newHeight list written).1 =
      { store := applyChangesList database.store list, height := newHeight.or database.height } := by
  unfold writeChanges at succeeded ⊢
  split_ifs at succeeded ⊢
  all_goals simp_all

/-- The outcomes of `commit_changes_with_height_update`: a rejection that returns the
database, a commit without a new height into a database without one, or the write of
the changes and the metadata at the one new height, which follows the database's. -/
theorem commitChangesWithHeightUpdate_cases :
    (∃ error, commitChangesWithHeightUpdate database list written = (database, .error error)) ∨
    (newHeights list = [] ∧ database.height = none ∧
      commitChangesWithHeightUpdate database list written =
        writeChanges database none list written) ∨
    (∃ newHeight, newHeights list = [newHeight] ∧
      (database.height = none ∨ ∃ previous, database.height = some previous ∧
        previous + 1 = newHeight) ∧
      commitChangesWithHeightUpdate database list written =
        writeChanges database (some newHeight) (list ++ [metadataChanges newHeight]) written) := by
  unfold commitChangesWithHeightUpdate
  generalize newHeights list = heights
  rcases heights with _ | ⟨newHeight, _ | ⟨other, rest⟩⟩
  · cases database.height with
    | none => exact .inr (.inl ⟨rfl, rfl, by simp⟩)
    | some previous => exact .inl ⟨.newHeightIsNotSet previous, by simp⟩
  · cases database.height with
    | none => exact .inr (.inr ⟨newHeight, rfl, .inl rfl, by simp⟩)
    | some previous =>
        by_cases overflow : heightLimit ≤ previous + 1
        · exact .inl ⟨.failedToAdvanceHeight, by simp [overflow]⟩
        by_cases linked : previous + 1 = newHeight
        · subst linked
          exact .inr (.inr ⟨previous + 1, rfl, .inr ⟨previous, rfl, rfl⟩, by simp [overflow]⟩)
        · exact .inl ⟨.heightsAreNotLinked previous newHeight, by simp [overflow, linked]⟩
  · exact .inl ⟨.multipleHeightsInCommit (newHeight :: other :: rest), by simp⟩

theorem commitChangesWithHeightUpdate_error {error : DatabaseError}
    (failed : (commitChangesWithHeightUpdate database list written).2 = .error error) :
    (commitChangesWithHeightUpdate database list written).1 = database := by
  rcases commitChangesWithHeightUpdate_cases database list written with
    ⟨_, rejected⟩ | ⟨-, -, writes⟩ | ⟨newHeight, -, -, writes⟩
  · rw [rejected]
  · rw [writes] at failed ⊢
    exact writeChanges_error _ _ _ failed
  · rw [writes] at failed ⊢
    exact writeChanges_error _ _ _ failed

theorem commitChangesWithHeightUpdate_ok_of_mem {newHeight : Nat}
    (member : newHeight ∈ newHeights list)
    (succeeded : (commitChangesWithHeightUpdate database list written).2 = .ok ()) :
    newHeights list = [newHeight] ∧
      (database.height = none ∨ ∃ previous, database.height = some previous ∧
        previous + 1 = newHeight) ∧
      (commitChangesWithHeightUpdate database list written).1 =
        { store := applyChangesList database.store (list ++ [metadataChanges newHeight]),
          height := some newHeight } := by
  rcases commitChangesWithHeightUpdate_cases database list written with
    ⟨_, rejected⟩ | ⟨noHeight, -, -⟩ | ⟨listed, single, linked, writes⟩
  · simp [rejected] at succeeded
  · simp [noHeight] at member
  · have same : listed = newHeight := by
      rw [single, List.mem_singleton] at member
      exact member.symm
    subst same
    rw [writes] at succeeded ⊢
    refine ⟨single, linked, ?_⟩
    simpa using writeChanges_ok database _ written succeeded

end Database

theorem mem_newHeights_of_lookup {changes : Changes} {height blockId : Nat}
    (stored : changes.lookup (DbKey.fuelBlocks height) = some (some blockId))
    (rest : List Changes) : height ∈ newHeights (changes :: rest) := by
  have entry : (⟨DbKey.fuelBlocks height, some blockId⟩ : Σ _ : DbKey, Option Nat) ∈
      changes.entries := AList.mem_lookup_iff.mp stored
  simp only [newHeights, List.flatMap_cons, List.mem_append, List.mem_filterMap]
  exact .inl ⟨_, entry, rfl⟩

/-! ## Preparing the block changes -/

section Prepare

variable (push : Option Nat → Nat → Nat) (store : Store) (block : SealedBlock)

theorem replaceEntry_lookup_of_ne (changes : Changes) {key key' : DbKey} (value : Nat)
    (different : key' ≠ key) :
    (replaceEntry store changes key value).1.lookup key' = changes.lookup key' :=
  AList.lookup_insert_ne different

theorem replaceTransactions_lookup (transactions : List Nat) (changes : Changes) (found : Bool)
    {key : DbKey} (notTransaction : ∀ txId, key ≠ .transactions txId) :
    (replaceTransactions store transactions (changes, found)).1.lookup key =
      changes.lookup key := by
  induction transactions generalizing changes found with
  | nil => rfl
  | cons txId transactions induction =>
      rw [replaceTransactions, induction]
      exact replaceEntry_lookup_of_ne store changes txId (notTransaction txId)

theorem storeNewBlock_stores {changes : Changes} {unique : Bool}
    (stored : storeNewBlock push store block = .ok (changes, unique)) :
    changes.lookup (DbKey.fuelBlocks block.height) = some (some block.blockId) := by
  unfold storeNewBlock at stored
  split_ifs at stored
  simp only [Except.ok.injEq, Prod.mk.injEq] at stored
  rw [← stored.1, replaceTransactions_lookup _ _ _ _ (fun _ => by simp),
    replaceEntry_lookup_of_ne _ _ _ (by simp), AList.lookup_insert_ne (by simp),
    AList.lookup_insert_ne (by simp), AList.lookup_insert]

/-- The height `create_block_changes` expects is the one after the database's latest
block, or a genesis block's own height when the database holds no block. -/
theorem expectedNextHeight_ok {expected : Nat}
    (accepted : expectedNextHeight store block = .ok expected) :
    (block.consensus = .genesis ∧ latestBlockHeight store = none ∧ expected = block.height) ∨
      (block.consensus = .poa ∧ ∃ last, latestBlockHeight store = some last ∧
        expected = last + 1) := by
  unfold expectedNextHeight at accepted
  split at accepted
  · rename_i genesis
    split_ifs at accepted with hasBlock
    simp only [Except.ok.injEq] at accepted
    exact .inl ⟨genesis, Option.not_isSome_iff_eq_none.mp hasBlock, accepted.symm⟩
  · rename_i poa
    split_ifs at accepted
    split at accepted
    · simp at accepted
    · rename_i last latest
      split_ifs at accepted
      simp only [Except.ok.injEq] at accepted
      exact .inr ⟨poa, last, latest, accepted.symm⟩
  · simp at accepted

theorem createBlockChanges_ok {blockChanges : Changes}
    (created : createBlockChanges push store block = .ok blockChanges) :
    ((block.consensus = .genesis ∧ latestBlockHeight store = none) ∨
      (block.consensus = .poa ∧ ∃ last, latestBlockHeight store = some last ∧
        last + 1 = block.height)) ∧
    blockChanges.lookup (DbKey.fuelBlocks block.height) = some (some block.blockId) := by
  unfold createBlockChanges at created
  cases expectation : expectedNextHeight store block with
  | error error => simp [expectation] at created
  | ok expected =>
      simp only [expectation] at created
      split_ifs at created with mismatch
      cases storing : storeNewBlock push store block with
      | error error => simp [storing] at created
      | ok result =>
          rcases result with ⟨changes, unique⟩
          simp only [storing] at created
          split_ifs at created
          simp only [Except.ok.injEq] at created
          subst created
          refine ⟨?_, storeNewBlock_stores push store block storing⟩
          rcases expectedNextHeight_ok store block expectation with
            ⟨genesis, none, -⟩ | ⟨poa, last, latest, expectedEq⟩
          · exact .inl ⟨genesis, none⟩
          · exact .inr ⟨poa, last, latest, by omega⟩

end Prepare

/-! ## One call -/

section Call

variable (push : Option Nat → Nat → Nat) (database : Database)

theorem commitPrepared_error (source : Source) (blockChanges executionChanges : Changes)
    (published written : Bool) {error : ImporterError}
    (failed : (commitPrepared database source blockChanges executionChanges published
      written).2 = .error error) :
    (commitPrepared database source blockChanges executionChanges published written).1 =
      database := by
  unfold commitPrepared at failed ⊢
  dsimp only at failed ⊢
  split_ifs at failed ⊢
  · rfl
  · rfl
  · -- Only the database commit is left, and it fails without writing.
    cases committed : (commitChangesWithHeightUpdate database [blockChanges, executionChanges]
      written).2 with
    | ok => simp [committed, Except.mapError] at failed
    | error databaseError => exact commitChangesWithHeightUpdate_error _ _ _ committed

theorem commitPrepared_commits {block : SealedBlock} {blockChanges : Changes}
    (created : createBlockChanges push database.store block = .ok blockChanges)
    (source : Source) (executionChanges : Changes) (published written : Bool)
    (succeeded : (commitPrepared database source blockChanges executionChanges published
      written).2 = .ok ()) :
    CommitsNextBlock database block
      (commitPrepared database source blockChanges executionChanges published written).1 := by
  rcases createBlockChanges_ok push database.store block created with ⟨nextHeight, stored⟩
  unfold commitPrepared at succeeded ⊢
  dsimp only at succeeded ⊢
  split_ifs at succeeded ⊢ with rootMoved
  have committed : (commitChangesWithHeightUpdate database [blockChanges, executionChanges]
      written).2 = .ok () := by
    cases outcome : (commitChangesWithHeightUpdate database [blockChanges, executionChanges]
      written).2 with
    | ok => rfl
    | error databaseError => simp [outcome, Except.mapError] at succeeded
  rcases commitChangesWithHeightUpdate_ok_of_mem database _ written
    (mem_newHeights_of_lookup stored [executionChanges]) committed with
    ⟨single, linked, written⟩
  simp only [written]
  exact ⟨nextHeight, ⟨rfl, linked⟩,
    ⟨blockChanges, executionChanges, stored, single, not_not.mp rootMoved, rfl⟩⟩

/-- The step lemma: a failed call leaves the database as it was. -/
theorem Call.run_error (call : Call) {error : ImporterError}
    (failed : (call.run push database).2 = .error error) :
    (call.run push database).1 = database := by
  cases call with
  | commitResult block source executionChanges environment =>
      simp only [Call.run, FuelCore.Importer.commitResult] at failed ⊢
      cases guard : environment.guardFree
      · rfl
      cases permit : environment.permitAcquired
      · simp
      cases created : createBlockChanges push database.store block with
      | error createError => simp
      | ok blockChanges =>
          simp only [guard, permit, created, Bool.not_true, Bool.false_eq_true, if_false]
            at failed ⊢
          exact commitPrepared_error database _ _ _ _ _ failed
  | executeAndCommit block verified execution environment =>
      simp only [Call.run, FuelCore.Importer.executeAndCommit] at failed ⊢
      cases guard : environment.guardFree
      · rfl
      cases executed : verifyAndExecute block verified execution with
      | error executeError => simp
      | ok executionChanges =>
          cases created : createBlockChanges push database.store block with
          | error createError => simp
          | ok blockChanges =>
              cases permit : environment.permitAcquired
              · simp
              simp only [guard, permit, executed, created, Bool.not_true, Bool.false_eq_true,
                if_false] at failed ⊢
              exact commitPrepared_error database _ _ _ _ _ failed

/-- The step lemma: a successful call commits the next block. -/
theorem Call.run_ok (call : Call) (succeeded : (call.run push database).2 = .ok ()) :
    CommitsNextBlock database call.block (call.run push database).1 := by
  cases call with
  | commitResult block source executionChanges environment =>
      simp only [Call.run, Call.block, FuelCore.Importer.commitResult] at succeeded ⊢
      cases guard : environment.guardFree
      · simp [guard] at succeeded
      cases permit : environment.permitAcquired
      · simp [guard, permit] at succeeded
      cases created : createBlockChanges push database.store block with
      | error createError => simp [guard, permit, created] at succeeded
      | ok blockChanges =>
          simp only [guard, permit, created, Bool.not_true, Bool.false_eq_true, if_false]
            at succeeded ⊢
          exact commitPrepared_commits push database created _ _ _ _ succeeded
  | executeAndCommit block verified execution environment =>
      simp only [Call.run, Call.block, FuelCore.Importer.executeAndCommit] at succeeded ⊢
      cases guard : environment.guardFree
      · simp [guard] at succeeded
      cases executed : verifyAndExecute block verified execution with
      | error executeError => simp [guard, executed] at succeeded
      | ok executionChanges =>
          cases created : createBlockChanges push database.store block with
          | error createError => simp [guard, executed, created] at succeeded
          | ok blockChanges =>
              cases permit : environment.permitAcquired
              · simp [guard, executed, created, permit] at succeeded
              simp only [guard, permit, executed, created, Bool.not_true, Bool.false_eq_true,
                if_false] at succeeded ⊢
              exact commitPrepared_commits push database created _ _ _ _ succeeded

end Call

/-! ## Runs -/

/-- What each call of a run must do: nothing if it fails, commit the next block if it
succeeds. -/
def ImportStep.Correct (step : ImportStep) : Prop :=
  match step.result with
  | .error _ => step.after = step.before
  | .ok () => CommitsNextBlock step.before step.call.block step.after

theorem runCalls_step_correct (push : Option Nat → Nat → Nat) (database : Database)
    (call : Call) : ImportStep.Correct
      ⟨database, call, (call.run push database).1, (call.run push database).2⟩ := by
  unfold ImportStep.Correct
  cases outcome : (call.run push database).2 with
  | error error => exact Call.run_error push database call outcome
  | ok _ => exact Call.run_ok push database call outcome

/-- Along any sequence of `commit_result` and `execute_and_commit` calls, each failing
call leaves the database's committed state as it was, and each successful call
commits its block as the only new block height, at the height after the database's
latest block (or as a genesis block into a database without blocks), linked to the
database's height, with execution changes that did not move the block root. -/
theorem importer_commits_next_block_or_nothing (push : Option Nat → Nat → Nat)
    (database : Database) (calls : List Call) :
    ∀ step ∈ runCalls push database calls, step.Correct := by
  induction calls generalizing database with
  | nil => simp [runCalls]
  | cons call calls induction =>
      intro step member
      rcases List.mem_cons.mp member with first | later
      · subst first
        exact runCalls_step_correct push database call
      · exact induction _ step later

/-- A genesis block, then the next block from the network. -/
def genesisThenNext : List Call :=
  [.commitResult ⟨0, 7, .genesis, [1]⟩ .network ∅ ⟨true, true, true, true⟩,
    .executeAndCommit ⟨1, 8, .poa, [2]⟩ true (.ok ∅) ⟨true, true, true, true⟩]

theorem importer_commits_genesis_then_next_block :
    (runCalls (fun _ blockId => blockId) ⟨∅, none⟩ genesisThenNext).map ImportStep.result =
        [.ok (), .ok ()] ∧
      ∀ step ∈ runCalls (fun _ blockId => blockId) ⟨∅, none⟩ genesisThenNext,
        CommitsNextBlock step.before step.call.block step.after := by
  have succeeded : (runCalls (fun _ blockId => blockId) ⟨∅, none⟩ genesisThenNext).map
      ImportStep.result = [.ok (), .ok ()] := rfl
  refine ⟨succeeded, fun step member => ?_⟩
  have correct := importer_commits_next_block_or_nothing (fun _ blockId => blockId) ⟨∅, none⟩
    genesisThenNext step member
  have listed : step.result ∈ [.ok (), .ok ()] := succeeded ▸ List.mem_map.mpr ⟨step, member, rfl⟩
  have ok : step.result = .ok () := by simpa using listed
  unfold ImportStep.Correct at correct
  rwa [ok] at correct

end FuelCore.Importer
