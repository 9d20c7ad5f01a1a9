import FuelCore.BlockAggregator.Task
import FuelCore.BlockAggregator.StorageSpec

/-! # What the block aggregator's task keeps

Whatever the node imports and whenever the task takes its turns, the aggregator's storage agrees
with the node's database: every block it stored is the node's block at that height and, when it
keeps blocks, every height from `sync_from` up to its latest one is stored. The blocks on their
way to it keep this, since the old blocks are read from the node's database and the importer
announces what the node imported. So a range query answers the node's blocks.

From a restart, with nothing imported meanwhile, each turn of the task stores the next block of
the node's database, up to the last height the importer announced.
-/

namespace FuelCore.BlockAggregator

variable {Block : Type}

/-! ## One step of each part -/

namespace Receiver

theorem mem_send {receiver : Receiver Block} {message other : UInt32 × Block}
    (member : other ∈ (receiver.send message).messages) :
    other ∈ receiver.messages ∨ other = message := by
  unfold send at member
  split_ifs at member
  · simpa using member
  · rcases List.mem_append.mp member with kept | sent
    · exact .inl (List.mem_of_mem_tail kept)
    · exact .inr (List.mem_singleton.mp sent)

@[simp] theorem capacity_send (receiver : Receiver Block) (message : UInt32 × Block) :
    (receiver.send message).capacity = receiver.capacity := by
  unfold send
  split_ifs <;> rfl

theorem recv_eq_some {receiver receiver' : Receiver Block} {item : Option (UInt32 × Block)}
    (received : receiver.recv = some (item, receiver')) :
    (∀ message ∈ item, message ∈ receiver.messages) ∧
      receiver'.messages ⊆ receiver.messages ∧ receiver'.capacity = receiver.capacity := by
  unfold recv at received
  split_ifs at received
  · cases received
    exact ⟨by simp, List.Subset.refl _, rfl⟩
  · cases messages : receiver.messages with
    | nil => simp [messages] at received
    | cons message rest =>
        simp only [messages, Option.some.injEq, Prod.mk.injEq] at received
        obtain ⟨rfl, rfl⟩ := received
        exact ⟨by simp, by simp, rfl⟩

end Receiver

namespace OldBlocks

/-- What `StorageIterator` yields under the `take_while`: the node's block at its next height,
within the importer's height, and the iterator moves on to the height after. -/
theorem next_eq_some {blocks : UInt32 → Option Block} {old old' : OldBlocks}
    {item : UInt32 × Block} (found : old.next blocks = some (item, old')) :
    old.nextHeight = some item.1 ∧ blocks item.1 = some item.2 ∧
      old.importerHeight.all (item.1 ≤ ·) ∧ old' = ⟨item.1.checkedAdd 1, old.importerHeight⟩ := by
  unfold next at found
  simp only [Option.bind_eq_bind, Option.bind_eq_some_iff] at found
  obtain ⟨height, hasNext, block, held, chosen⟩ := found
  split_ifs at chosen with within
  cases chosen
  exact ⟨hasNext, held, within, rfl⟩

theorem next_of_held {blocks : UInt32 → Option Block} {height : UInt32} {block : Block}
    (bound : Option UInt32) (held : blocks height = some block) (within : bound.all (height ≤ ·)) :
    OldBlocks.next blocks ⟨some height, bound⟩ =
      some ((height, block), ⟨height.checkedAdd 1, bound⟩) := by
  simp [next, held, within]

end OldBlocks

namespace Task

theorem admits_nextHeight (task : Task Block) :
    Admits task.storage.getCurrentHeight task.nextHeight := by
  intro next found
  simp [nextHeight, Option.mem_def.mp found]

/-- `handle_block` at the height the task stores next always stores: the provider that gives it
that height reads the database the storage checks. -/
theorem handleBlock_nextHeight (task : Task Block) (block : Block) :
    task.handleBlock task.nextHeight block =
      { task with storage := task.storage.write task.nextHeight block } := by
  have stored : task.storage.storeBlock task.nextHeight block =
      .ok (task.storage.write task.nextHeight block) :=
    StorageOrRemoteDB.storeBlock_eq_ok_iff.mpr ⟨task.admits_nextHeight, rfl⟩
  simp [handleBlock, stored]

theorem handleBlock_of_ne {task : Task Block} {height : UInt32} (other : task.nextHeight ≠ height)
    (block : Block) : task.handleBlock height block = task.restartBlocksStream := by
  simp [handleBlock, other]

theorem storage_handleBlock (task : Task Block) (height : UInt32) (block : Block) :
    (task.handleBlock height block).storage = task.storage ∨
      ∃ written stored, (task.handleBlock height block).storage =
        task.storage.write written stored := by
  by_cases same : task.nextHeight = height
  · subst same
    rw [handleBlock_nextHeight]
    exact .inr ⟨_, _, rfl⟩
  · rw [handleBlock_of_ne same]
    exact .inl rfl

@[simp] theorem nextHeight_write (task : Task Block) (height : UInt32) (block : Block) :
    { task with storage := task.storage.write height block }.nextHeight =
      (height.checkedAdd 1).getD task.syncFrom := by
  simp [nextHeight]

theorem pollStream_cases (blocks : UInt32 → Option Block) (task : Task Block) :
    let polled := task.pollStream blocks
    polled.2.storage = task.storage ∧ polled.2.syncFrom = task.syncFrom ∧
      polled.2.lastSeenImporterHeight = task.lastSeenImporterHeight ∧
      polled.2.live.messages ⊆ task.live.messages ∧
      polled.2.live.capacity = task.live.capacity ∧
      ∀ item ∈ polled.1, ∀ message ∈ item,
        message ∈ task.live.messages ∨ blocks message.1 = some message.2 := by
  unfold pollStream
  cases old : task.oldBlocks.bind (·.next blocks) with
  | some next =>
      obtain ⟨item, old'⟩ := next
      obtain ⟨hasOld, hasOld'⟩ := Option.bind_eq_some_iff.mp old
      have found := (OldBlocks.next_eq_some hasOld'.2).2.1
      refine ⟨rfl, rfl, rfl, List.Subset.refl _, rfl, fun polled member message inItem => .inr ?_⟩
      simp only [Option.mem_def] at member inItem
      obtain rfl := Option.some.inj member
      obtain rfl := Option.some.inj inItem
      exact found
  | none =>
      cases received : task.live.recv with
      | some next =>
          obtain ⟨item, live⟩ := next
          obtain ⟨fromLive, kept, capacity⟩ := Receiver.recv_eq_some received
          exact ⟨rfl, rfl, rfl, kept, capacity, fun polled member message inItem =>
            .inl (fromLive message (by simp_all))⟩
      | none => exact ⟨rfl, rfl, rfl, List.Subset.refl _, rfl, by simp⟩


@[simp] theorem syncFrom_handleBlock (task : Task Block) (height : UInt32) (block : Block) :
    (task.handleBlock height block).syncFrom = task.syncFrom := by
  unfold handleBlock
  split_ifs
  · rfl
  · split <;> rfl

theorem syncFrom_pollBlocks (blocks : UInt32 → Option Block) (task : Task Block) :
    (task.pollBlocks blocks).syncFrom = task.syncFrom := by
  obtain ⟨-, syncFrom, -⟩ := pollStream_cases blocks task
  unfold pollBlocks
  cases item : task.pollStream blocks with
  | mk read next =>
      rw [item] at syncFrom
      rcases read with _ | _ | ⟨height, block⟩
      · exact syncFrom
      · exact syncFrom
      · exact (syncFrom_handleBlock next height block).trans syncFrom

theorem storage_pollBlocks (blocks : UInt32 → Option Block) (task : Task Block) :
    (task.pollBlocks blocks).storage = task.storage ∨
      ∃ written stored, (task.pollBlocks blocks).storage = task.storage.write written stored := by
  obtain ⟨storage, -⟩ := pollStream_cases blocks task
  unfold pollBlocks
  cases item : task.pollStream blocks with
  | mk read next =>
      rw [item] at storage
      rcases read with _ | _ | ⟨height, block⟩
      · exact .inl storage
      · exact .inl storage
      · rw [← storage]
        exact next.storage_handleBlock height block

end Task

/-! ## Agreement with the node's database -/

/-- The node's database only gains blocks. -/
def Extends (blocks blocks' : UInt32 → Option Block) : Prop :=
  ∀ height block, blocks height = some block → blocks' height = some block

namespace StorageOrRemoteDB

/-- The storage agrees with the node's database from `syncFrom` on. -/
structure Agrees (blocks : UInt32 → Option Block) (syncFrom : UInt32)
    (storage : StorageOrRemoteDB Block) : Prop where
  stored : ∀ height block, storage.block? height = some block → blocks height = some block
  complete : storage.KeepsBlocks → ∀ latest ∈ storage.getCurrentHeight, ∀ height,
    syncFrom ≤ height → height ≤ latest → (storage.block? height).isSome

theorem Agrees.mono {blocks blocks' : UInt32 → Option Block} {syncFrom : UInt32}
    {storage : StorageOrRemoteDB Block} (agrees : storage.Agrees blocks syncFrom)
    (grows : Extends blocks blocks') : storage.Agrees blocks' syncFrom :=
  ⟨fun height block found => grows height block (agrees.stored height block found),
    agrees.complete⟩

theorem Agrees.write {blocks : UInt32 → Option Block} {syncFrom : UInt32}
    {storage : StorageOrRemoteDB Block} (agrees : storage.Agrees blocks syncFrom) {height : UInt32}
    {block : Block} (found : blocks height = some block)
    (next : height = (storage.getCurrentHeight.bind (·.checkedAdd 1)).getD syncFrom) :
    (storage.write height block).Agrees blocks syncFrom := by
  constructor
  · intro other stored written
    by_cases same : other = height
    · subst same
      rw [eq_of_block?_write_self written]
      exact found
    · rw [block?_write_of_ne _ same] at written
      exact agrees.stored other stored written
  · intro keeps latest isLatest other above below
    rw [keepsBlocks_write] at keeps
    rw [getCurrentHeight_write, Option.mem_some_iff] at isLatest
    subst isLatest
    by_cases same : other = height
    · subst same
      rw [block?_write_self keeps]
      rfl
    · rw [block?_write_of_ne _ same]
      have order : syncFrom.toNat ≤ other.toNat ∧ other.toNat ≤ height.toNat ∧
          other.toNat ≠ height.toNat := by
        rw [UInt32.le_iff_toNat_le] at above below
        exact ⟨above, below, fun equal => same (UInt32.toNat_inj.mp equal)⟩
      cases current : storage.getCurrentHeight with
      | none =>
          have atSyncFrom : height = syncFrom := by simpa [current] using next
          rw [atSyncFrom] at order
          omega
      | some previous =>
          cases added : previous.checkedAdd 1 with
          | none =>
              have atSyncFrom : height = syncFrom := by simpa [current, added] using next
              rw [atSyncFrom] at order
              omega
          | some following =>
              have atNext : height = following := by simpa [current, added] using next
              subst atNext
              have step := (UInt32.checkedAdd_eq_some_iff.mp added).2
              refine agrees.complete keeps previous current other above ?_
              rw [UInt32.le_iff_toNat_le]
              rw [UInt32.toNat_one] at step
              omega

end StorageOrRemoteDB

namespace Task

/-- The task agrees with the node's database: its storage does, and so do the messages waiting
in its receiver. -/
structure Agrees (blocks : UInt32 → Option Block) (task : Task Block) : Prop where
  storage : task.storage.Agrees blocks task.syncFrom
  live : ∀ message ∈ task.live.messages, blocks message.1 = some message.2

theorem Agrees.mono {blocks blocks' : UInt32 → Option Block} {task : Task Block}
    (agrees : task.Agrees blocks) (grows : Extends blocks blocks') : task.Agrees blocks' :=
  ⟨agrees.storage.mono grows, fun message member => grows _ _ (agrees.live message member)⟩

theorem Agrees.restartBlocksStream {blocks : UInt32 → Option Block} {task : Task Block}
    (agrees : task.Agrees blocks) : task.restartBlocksStream.Agrees blocks :=
  ⟨agrees.storage, by simp [Task.restartBlocksStream, Receiver.subscribe]⟩

theorem Agrees.handleBlock {blocks : UInt32 → Option Block} {task : Task Block}
    (agrees : task.Agrees blocks) {height : UInt32} {block : Block}
    (found : blocks height = some block) : (task.handleBlock height block).Agrees blocks := by
  by_cases same : task.nextHeight = height
  · subst same
    rw [handleBlock_nextHeight]
    exact ⟨agrees.storage.write found rfl, agrees.live⟩
  · rw [handleBlock_of_ne same]
    exact agrees.restartBlocksStream

theorem Agrees.receiveImported {blocks : UInt32 → Option Block} {task : Task Block}
    (agrees : task.Agrees blocks) {height : UInt32} {block : Block}
    (found : blocks height = some block) : (task.receiveImported height block).Agrees blocks := by
  refine ⟨agrees.storage, fun message member => ?_⟩
  rcases Receiver.mem_send member with kept | sent
  · exact agrees.live message kept
  · subst sent
    exact found

theorem Agrees.pollBlocks {blocks : UInt32 → Option Block} {task : Task Block}
    (agrees : task.Agrees blocks) : (task.pollBlocks blocks).Agrees blocks := by
  obtain ⟨storage, syncFrom, -, kept, -, fromNode⟩ := pollStream_cases blocks task
  have polled : (task.pollStream blocks).2.Agrees blocks :=
    ⟨storage ▸ syncFrom ▸ agrees.storage, fun message member => agrees.live message (kept member)⟩
  unfold Task.pollBlocks
  cases item : task.pollStream blocks with
  | mk read next =>
      rw [item] at polled fromNode
      rcases read with _ | _ | ⟨height, block⟩
      · exact polled
      · exact polled.restartBlocksStream
      · apply polled.handleBlock
        rcases fromNode (some (height, block)) rfl (height, block) rfl with live | found
        · exact agrees.live _ live
        · exact found

end Task

namespace World

/-- The world agrees with itself: the task agrees with the node's database, and so do the imports
its importer stream has not yielded. -/
structure Agrees (world : World Block) : Prop where
  task : world.task.Agrees world.blocks
  imports : ∀ message ∈ world.imports, world.blocks message.1 = some message.2

theorem agrees_new {blocks : UInt32 → Option Block} {syncFrom : UInt32}
    {storage : StorageOrRemoteDB Block} (agrees : storage.Agrees blocks syncFrom) (capacity : ℕ) :
    (World.new blocks syncFrom storage capacity).Agrees :=
  ⟨⟨agrees, by simp [World.new, Task.new, Task.restartBlocksStream, Receiver.subscribe]⟩, by
    simp [World.new]⟩

theorem Agrees.step {world : World Block} (agrees : world.Agrees) (event : Event Block) :
    (world.step event).Agrees := by
  cases event with
  | commit height block =>
      simp only [World.step]
      split_ifs with fresh
      · have grows : Extends world.blocks (Function.update world.blocks height (some block)) :=
          fun other held found => by
            have different : other ≠ height := fun same => by simp_all
            simpa [Function.update_of_ne different] using found
        refine ⟨agrees.task.mono grows, fun message member => ?_⟩
        rcases List.mem_append.mp member with queued | committed
        · exact grows _ _ (agrees.imports message queued)
        · rw [List.mem_singleton.mp committed]
          simp
      · exact agrees
  | run =>
      simp only [World.step]
      cases imports : world.imports with
      | nil => exact ⟨agrees.task.pollBlocks, by simp⟩
      | cons first rest =>
          obtain ⟨height, block⟩ := first
          have found := agrees.imports (height, block) (by simp [imports])
          exact ⟨agrees.task.receiveImported found,
            fun message member => agrees.imports message (by simp [imports, member])⟩

theorem Agrees.run {world : World Block} (agrees : world.Agrees) (events : List (Event Block)) :
    (world.run events).Agrees := by
  induction events generalizing world with
  | nil => exact agrees
  | cons event events induction => exact induction (agrees.step event)

@[simp] theorem syncFrom_step (world : World Block) (event : Event Block) :
    (world.step event).task.syncFrom = world.task.syncFrom := by
  cases event with
  | commit height block =>
      simp only [step]
      split_ifs <;> rfl
  | run =>
      simp only [step]
      split
      · rfl
      · exact world.task.syncFrom_pollBlocks world.blocks

@[simp] theorem syncFrom_run (world : World Block) (events : List (Event Block)) :
    (world.run events).task.syncFrom = world.task.syncFrom := by
  induction events generalizing world with
  | nil => rfl
  | cons event events induction =>
      exact (induction (world.step event)).trans (world.syncFrom_step event)

theorem storage_step (world : World Block) (event : Event Block) :
    (world.step event).task.storage = world.task.storage ∨
      ∃ height block, (world.step event).task.storage = world.task.storage.write height block := by
  cases event with
  | commit height block =>
      simp only [step]
      split_ifs <;> exact .inl rfl
  | run =>
      simp only [step]
      split
      · exact .inl rfl
      · exact world.task.storage_pollBlocks world.blocks

end World

/-! ## Runs -/

namespace StorageOrRemoteDB

theorem agrees_empty (blocks : UInt32 → Option Block) (syncFrom : UInt32) :
    (storage StorageDB.empty).Agrees blocks syncFrom :=
  ⟨fun _ _ found => by simp [block?, StorageDB.empty] at found,
    fun _ _ current => by simp [getCurrentHeight, StorageDB.getCurrentHeight, StorageDB.empty] at current⟩

end StorageOrRemoteDB

/-- Whatever the node imports and whenever the task takes its turns, the aggregator's storage
agrees with the node's database from `sync_from` on: every block it holds is the node's block at
its height, and a storage that keeps blocks holds every height from `sync_from` to its latest. -/
theorem aggregated_blocks_are_the_nodes_blocks {blocks : UInt32 → Option Block}
    {syncFrom : UInt32} {storage : StorageOrRemoteDB Block} (agrees : storage.Agrees blocks syncFrom)
    (capacity : ℕ) (events : List (Event Block)) :
    let world := (World.new blocks syncFrom storage capacity).run events
    world.task.storage.Agrees world.blocks syncFrom := by
  have kept := ((World.agrees_new agrees capacity).run events).task.storage
  rwa [World.syncFrom_run] at kept

/-- A node holding, at each height up to nine, the height itself as its block. -/
def nodeBlocks (height : UInt32) : Option ℕ :=
  if height.toNat < 10 then some height.toNat else none

/-- The node imports block ten between the task's turns. -/
theorem local_aggregator_holds_the_nodes_blocks :
    (StorageOrRemoteDB.storage StorageDB.empty).Agrees nodeBlocks 2 ∧
      let world := (World.new nodeBlocks 2 (.storage StorageDB.empty) 4).run
        [.run, .commit 10 10, .run, .run, .run]
      world.task.storage.Agrees world.blocks 2 :=
  ⟨StorageOrRemoteDB.agrees_empty nodeBlocks 2,
    aggregated_blocks_are_the_nodes_blocks (StorageOrRemoteDB.agrees_empty nodeBlocks 2) 4 _⟩

theorem World.isLocal_run {world : World Block} (isLocal : ∃ db, world.task.storage = .storage db)
    (events : List (Event Block)) : ∃ db, (world.run events).task.storage = .storage db := by
  induction events generalizing world with
  | nil => exact isLocal
  | cons event events induction =>
      apply induction
      obtain ⟨db, isDb⟩ := isLocal
      rcases world.storage_step event with same | ⟨height, block, written⟩
      · exact ⟨db, same.trans isDb⟩
      · exact ⟨db.write height block, by rw [written, isDb]; rfl⟩

/-- An aggregator started over an empty local database answers every range from `sync_from` up
to its latest height with the node's blocks, one for each height of the range. -/
theorem aggregator_serves_the_nodes_blocks {blocks : UInt32 → Option Block} {syncFrom : UInt32}
    (capacity : ℕ) (events : List (Event Block)) {first last latest : UInt32}
    (synced : ((World.new blocks syncFrom (.storage StorageDB.empty) capacity).run events
      ).task.storage.getCurrentHeight = some latest)
    (fromSyncFrom : syncFrom ≤ first) (ordered : first ≤ last) (below : last ≤ latest) :
    let world := (World.new blocks syncFrom (.storage StorageDB.empty) capacity).run events
    (∀ height, first ≤ height → height ≤ last → (world.blocks height).isSome) ∧
      world.task.storage.getBlockRange first last =
        .ok (.bytes ((RangeInclusive.mk first last).toList.filterMap fun height =>
          (world.blocks height).map (height, ·))) := by
  intro world
  have agrees := ((World.agrees_new (StorageOrRemoteDB.agrees_empty blocks syncFrom)
    capacity).run events).task.storage
  rw [World.syncFrom_run] at agrees
  obtain ⟨db, isDb⟩ := @World.isLocal_run _
    (World.new blocks syncFrom (.storage StorageDB.empty) capacity) ⟨StorageDB.empty, rfl⟩ events
  change world.task.storage = _ at isDb
  rw [isDb] at agrees synced ⊢
  have held : ∀ height, first ≤ height → height ≤ last → (db.blocks height).isSome :=
    fun height above below' => agrees.complete trivial latest synced height
      (UInt32.le_trans fromSyncFrom above) (UInt32.le_trans below' below)
  have same : ∀ height, first ≤ height → height ≤ last →
      (db.blocks height).map (height, ·) = (world.blocks height).map (height, ·) := by
    intro height above below'
    obtain ⟨block, found⟩ := Option.isSome_iff_exists.mp (held height above below')
    rw [found, agrees.stored height block found]
  refine ⟨fun height above below' => ?_, ?_⟩
  · obtain ⟨block, found⟩ := Option.isSome_iff_exists.mp (held height above below')
    rw [agrees.stored height block found]
    rfl
  · rw [StorageOrRemoteDB.getBlockRange_storage_of_held db ordered held]
    congr 2
    exact List.filterMap_congr fun height member =>
      same height (RangeInclusive.mem_toList.mp member).1 (RangeInclusive.mem_toList.mp member).2

/-- Three turns from `sync_from` two store heights two to four; the range from three to four is
served. -/
theorem local_aggregator_serves_heights_three_to_four :
    ((World.new nodeBlocks 2 (.storage StorageDB.empty) 4).run [.run, .run, .run]
      ).task.storage.getCurrentHeight = some 4 ∧ (2 : UInt32) ≤ 3 ∧ (3 : UInt32) ≤ 4 ∧
      (4 : UInt32) ≤ 4 ∧
      let world := (World.new nodeBlocks 2 (.storage StorageDB.empty) 4).run [.run, .run, .run]
      (∀ height, 3 ≤ height → height ≤ 4 → (world.blocks height).isSome) ∧
        world.task.storage.getBlockRange 3 4 =
          .ok (.bytes ((RangeInclusive.mk 3 4).toList.filterMap fun height =>
            (world.blocks height).map (height, ·))) :=
  ⟨by decide, by decide, by decide, by decide,
    @aggregator_serves_the_nodes_blocks ℕ nodeBlocks 2 4 [.run, .run, .run] 3 4 4 (by decide)
      (by decide) (by decide) (by decide)⟩

/-! ## Catching up -/

/-- The stream was restarted and the task stored all it read since: the old blocks go on from
the height the task stores next, up to `bound`. -/
def Task.Restarted (bound : Option UInt32) (task : Task Block) : Prop :=
  task.oldBlocks = some ⟨some task.nextHeight, bound⟩

namespace World

theorem step_run_of_no_imports {world : World Block} (noImports : world.imports = []) :
    world.step .run = { world with task := world.task.pollBlocks world.blocks } := by
  obtain ⟨blocks, imports, task⟩ := world
  subst noImports
  rfl

theorem step_run_of_restarted {world : World Block} {bound : Option UInt32}
    (noImports : world.imports = []) (restarted : world.task.Restarted bound) {block : Block}
    (held : world.blocks world.task.nextHeight = some block)
    (within : bound.all (world.task.nextHeight ≤ ·)) :
    world.step .run =
      { world with
        task := { world.task with
          storage := world.task.storage.write world.task.nextHeight block
          oldBlocks := some ⟨world.task.nextHeight.checkedAdd 1, bound⟩ } } := by
  have polled : world.task.pollStream world.blocks =
      (some (some (world.task.nextHeight, block)),
        { world.task with oldBlocks := some ⟨world.task.nextHeight.checkedAdd 1, bound⟩ }) := by
    rw [Task.Restarted] at restarted
    simp only [Task.pollStream, restarted, Option.bind_some,
      OldBlocks.next_of_held bound held within]
  have handled := Task.handleBlock_nextHeight
    { world.task with oldBlocks := some ⟨world.task.nextHeight.checkedAdd 1, bound⟩ } block
  rw [step_run_of_no_imports noImports]
  simp only [Task.pollBlocks, polled]
  exact congrArg (fun task => { world with task }) handled

/-- With nothing to import, a restarted task stores the node's blocks one per turn: after
`count` turns it stores next the height `count` above, and its latest height is the one below,
as long as the node holds the blocks within the bound and the heights fit. -/
theorem run_catchUp : ∀ (count : ℕ) {world : World Block} {bound : Option UInt32},
    world.imports = [] → world.task.Restarted bound →
    world.task.nextHeight.toNat + count < UInt32.size →
    (∀ height, world.task.nextHeight ≤ height →
      height.toNat < world.task.nextHeight.toNat + count →
      (world.blocks height).isSome ∧ bound.all (height ≤ ·)) →
    let after := world.run (List.replicate count .run)
    after.task.nextHeight.toNat = world.task.nextHeight.toNat + count ∧
      after.task.Restarted bound ∧ after.imports = [] ∧ after.blocks = world.blocks ∧
      (count ≠ 0 → after.task.storage.getCurrentHeight.map UInt32.toNat =
        some (world.task.nextHeight.toNat + count - 1))
  | 0, _, _, noImports, restarted, _, _ => ⟨rfl, restarted, noImports, rfl, fun zero => absurd rfl zero⟩
  | count + 1, world, bound, noImports, restarted, fits, held => by
      intro after
      have unfolded : after = (world.step .run).run (List.replicate count .run) := rfl
      obtain ⟨isHeld, within⟩ := held world.task.nextHeight (UInt32.le_refl _) (by omega)
      obtain ⟨block, found⟩ := Option.isSome_iff_exists.mp isHeld
      have stepped := step_run_of_restarted noImports restarted found within
      obtain ⟨following, added⟩ : ∃ following, world.task.nextHeight.checkedAdd 1 = some following :=
        Option.ne_none_iff_exists'.mp fun overflow => by
          rw [UInt32.checkedAdd_eq_none_iff, UInt32.toNat_one] at overflow
          omega
      have successor := (UInt32.checkedAdd_eq_some_iff.mp added).2
      rw [UInt32.toNat_one] at successor
      have nextHeight : (world.step .run).task.nextHeight = following := by
        rw [stepped]
        show ((world.task.storage.write world.task.nextHeight block).getCurrentHeight.bind
          (·.checkedAdd 1)).getD world.task.syncFrom = following
        rw [StorageOrRemoteDB.getCurrentHeight_write, Option.bind_some, added]
        rfl
      have restarted' : (world.step .run).task.Restarted bound := by
        rw [Task.Restarted, nextHeight, stepped, added]
      have noImports' : (world.step .run).imports = [] := by rw [stepped, noImports]
      have sameBlocks : (world.step .run).blocks = world.blocks := by rw [stepped]
      obtain ⟨advanced, restartedAfter, noImportsAfter, blocksAfter, latest⟩ :=
        run_catchUp count noImports' restarted' (by rw [nextHeight]; omega)
          (fun height above below => by
            rw [sameBlocks]
            rw [nextHeight] at above below
            exact held height (UInt32.le_trans (UInt32.le_iff_toNat_le.mpr (by omega)) above)
              (by omega))
      rw [nextHeight, successor] at advanced
      rw [nextHeight, successor] at latest
      rw [unfolded]
      refine ⟨by omega, restartedAfter, noImportsAfter, blocksAfter.trans sameBlocks, fun _ => ?_⟩
      cases count with
      | zero =>
          show (world.step .run).task.storage.getCurrentHeight.map UInt32.toNat = _
          rw [stepped]
          simp
      | succ count =>
          rw [latest (Nat.succ_ne_zero count)]
          congr 1
          omega

end World

/-- An aggregator started against a node that holds the blocks from the height it stores first
on stores them one per turn while the node imports nothing: after `count` turns its latest height
is `count - 1` above the first. -/
theorem aggregator_catches_up_with_the_node {blocks : UInt32 → Option Block} {syncFrom : UInt32}
    {storage : StorageOrRemoteDB Block} (capacity count : ℕ) (positive : 0 < count)
    (fits : (Task.new syncFrom storage capacity).nextHeight.toNat + count < UInt32.size)
    (held : ∀ height, (Task.new syncFrom storage capacity).nextHeight ≤ height →
      height.toNat < (Task.new syncFrom storage capacity).nextHeight.toNat + count →
      (blocks height).isSome) :
    ((World.new blocks syncFrom storage capacity).run (List.replicate count .run)
      ).task.storage.getCurrentHeight.map UInt32.toNat =
        some ((Task.new syncFrom storage capacity).nextHeight.toNat + count - 1) :=
  (@World.run_catchUp _ count (World.new blocks syncFrom storage capacity) none rfl rfl fits
    fun height above below =>
    ⟨held height above below, rfl⟩).2.2.2.2 (Nat.pos_iff_ne_zero.mp positive)

/-- Five turns from `sync_from` two over an empty database store heights two to six. -/
theorem local_aggregator_catches_up_to_height_six :
    0 < 5 ∧ (Task.new 2 (.storage StorageDB.empty) 1 : Task ℕ).nextHeight.toNat + 5 < UInt32.size ∧
      (∀ height, (Task.new 2 (.storage StorageDB.empty) 1 : Task ℕ).nextHeight ≤ height →
        height.toNat < (Task.new 2 (.storage StorageDB.empty) 1 : Task ℕ).nextHeight.toNat + 5 →
        (nodeBlocks height).isSome) ∧
      ((World.new nodeBlocks 2 (.storage StorageDB.empty) 1).run (List.replicate 5 .run)
        ).task.storage.getCurrentHeight.map UInt32.toNat =
          some ((Task.new 2 (.storage StorageDB.empty) 1 : Task ℕ).nextHeight.toNat + 5 - 1) := by
  have first : (Task.new 2 (.storage StorageDB.empty) 1 : Task ℕ).nextHeight = 2 := rfl
  have held : ∀ height, (Task.new 2 (.storage StorageDB.empty) 1 : Task ℕ).nextHeight ≤ height →
      height.toNat < (Task.new 2 (.storage StorageDB.empty) 1 : Task ℕ).nextHeight.toNat + 5 →
      (nodeBlocks height).isSome := by
    intro height _ below
    rw [first] at below
    simp only [nodeBlocks, UInt32.reduceToNat] at below ⊢
    simp [show height.toNat < 10 by omega]
  exact ⟨by decide, by rw [first]; decide, held,
    aggregator_catches_up_with_the_node 1 5 (by decide) (by rw [first]; decide) held⟩

end FuelCore.BlockAggregator
