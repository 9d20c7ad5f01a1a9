import FuelCore.BlockAggregator.Storage

/-! # The block aggregator's task

`services/block_aggregator_api/src/task.rs`. The task reads one joint stream: the old blocks of
the node's database from the height after its latest one, then the blocks the importer
announces on a broadcast channel. It stores a block when it is at the height after its latest
one; any other block, and any error of the stream, restarts the stream from that height. When
the stream restarts, the old blocks stop at the last height the importer announced, and a new
subscription to the channel takes over after them.

The node is modelled beside the task: `commit` imports a block into the node's database and
queues it on the importer's stream, and `run` is one turn of the task's `select!`, which is
biased towards the importer. The old blocks are read from the node's database as it is when
they are polled, as `StorageIterator` reads them.

The broadcast channel keeps the last `capacity` messages for a receiver that has not read them;
a message sent to a full receiver pushes out its oldest one and the receiver's next read is the
error `Lagged`. Shutdown, the API service, and the failures of the databases and of the block
conversion (which stop or restart the task) are left out.
-/

namespace FuelCore.BlockAggregator

variable {Block : Type}

/-- The task's subscription to the broadcast channel: whether it lagged, and the messages it
has not read, oldest first. -/
structure Receiver (Block : Type) where
  capacity : ℕ
  lagged : Bool
  messages : List (UInt32 × Block)

namespace Receiver

/-- `blocks_broadcast.subscribe()`: a receiver that has read everything. -/
def subscribe (capacity : ℕ) : Receiver Block :=
  ⟨capacity, false, []⟩

/-- `blocks_broadcast.send`, as the receiver sees it. -/
def send (receiver : Receiver Block) (message : UInt32 × Block) : Receiver Block :=
  if receiver.messages.length < receiver.capacity then
    { receiver with messages := receiver.messages ++ [message] }
  else { receiver with lagged := true, messages := receiver.messages.tail ++ [message] }

/-- The next item of `BroadcastStream`: `Lagged` once after messages were lost, then the oldest
message kept; nothing while there is none. -/
def recv (receiver : Receiver Block) : Option (Option (UInt32 × Block) × Receiver Block) :=
  if receiver.lagged then some (none, { receiver with lagged := false })
  else
    match receiver.messages with
    | [] => none
    | message :: messages => some (some message, { receiver with messages })

end Receiver

/-- The old blocks of the joint stream: `StorageIterator`'s next height and the importer's
height the `take_while` stops after. -/
structure OldBlocks where
  nextHeight : Option UInt32
  importerHeight : Option UInt32
  deriving DecidableEq, Repr

/-- `StorageIterator::next` under the `take_while` of `restart_blocks_stream`: the block of the
node's database at the next height, unless the database has none there or the height is past
the importer's. -/
def OldBlocks.next (blocks : UInt32 → Option Block) (old : OldBlocks) :
    Option ((UInt32 × Block) × OldBlocks) := do
  let height ← old.nextHeight
  let block ← blocks height
  if old.importerHeight.all (height ≤ ·) then
    some ((height, block), { old with nextHeight := height.checkedAdd 1 })
  else none

/-- `Task`: the storage, which the shared state's provider reads too, the last height the
importer announced, and the joint stream: the old blocks while they last, then the receiver. -/
structure Task (Block : Type) where
  syncFrom : UInt32
  storage : StorageOrRemoteDB Block
  lastSeenImporterHeight : Option UInt32
  oldBlocks : Option OldBlocks
  live : Receiver Block

namespace Task

/-- The height the task stores next: the one after its latest, or `sync_from`. -/
def nextHeight (task : Task Block) : UInt32 :=
  (task.storage.getCurrentHeight.bind (·.checkedAdd 1)).getD task.syncFrom

/-- `restart_blocks_stream`. -/
def restartBlocksStream (task : Task Block) : Task Block :=
  { task with
    oldBlocks := some ⟨some task.nextHeight, task.lastSeenImporterHeight⟩
    live := Receiver.subscribe task.live.capacity }

/-- `Task::new`. -/
def new (syncFrom : UInt32) (storage : StorageOrRemoteDB Block) (capacity : ℕ) : Task Block :=
  restartBlocksStream ⟨syncFrom, storage, none, none, Receiver.subscribe capacity⟩

/-- `handle_block`. A store that fails leaves the task as it was (`ErrorContinue`). -/
def handleBlock (task : Task Block) (blockHeight : UInt32) (block : Block) : Task Block :=
  if task.nextHeight ≠ blockHeight then task.restartBlocksStream
  else
    match task.storage.storeBlock blockHeight block with
    | .ok storage => { task with storage }
    | .error _ => task

/-- The importer's branch of `run`: the block goes to the broadcast channel and its height is
remembered. -/
def receiveImported (task : Task Block) (height : UInt32) (block : Block) : Task Block :=
  { task with live := task.live.send (height, block), lastSeenImporterHeight := some height }

/-- One poll of the joint stream over the node's database: an item, if one is ready, and the
stream after it. Once the old blocks end, the receiver is polled. -/
def pollStream (blocks : UInt32 → Option Block) (task : Task Block) :
    Option (Option (UInt32 × Block)) × Task Block :=
  match task.oldBlocks.bind (·.next blocks) with
  | some (item, old) => (some (some item), { task with oldBlocks := some old })
  | none =>
      match task.live.recv with
      | some (item, live) => (some item, { task with oldBlocks := none, live })
      | none => (none, { task with oldBlocks := none })

/-- The stream's branch of `run`: a block is handled, an error restarts the stream. -/
def pollBlocks (blocks : UInt32 → Option Block) (task : Task Block) : Task Block :=
  match task.pollStream blocks with
  | (some (some (height, block)), task) => task.handleBlock height block
  | (some none, task) => task.restartBlocksStream
  | (none, task) => task

end Task

/-- The node and the task: the blocks of the node's database, the imports its importer stream
has not yet yielded, and the task. -/
structure World (Block : Type) where
  blocks : UInt32 → Option Block
  imports : List (UInt32 × Block)
  task : Task Block

/-- What happens next: the node imports a block, or the task takes a turn. -/
inductive Event (Block : Type)
  | commit (height : UInt32) (block : Block)
  | run

namespace World

/-- A node whose database holds `blocks` and a task just started over `storage`. -/
def new (blocks : UInt32 → Option Block) (syncFrom : UInt32) (storage : StorageOrRemoteDB Block)
    (capacity : ℕ) : World Block :=
  ⟨blocks, [], Task.new syncFrom storage capacity⟩

/-- One event. The node imports at a height it holds no block at; the task's `select!` takes
the importer's branch whenever it has an item. -/
def step (world : World Block) : Event Block → World Block
  | .commit height block =>
      if world.blocks height = none then
        { world with
          blocks := Function.update world.blocks height (some block)
          imports := world.imports ++ [(height, block)] }
      else world
  | .run =>
      match world.imports with
      | (height, block) :: imports =>
          { world with imports, task := world.task.receiveImported height block }
      | [] => { world with task := world.task.pollBlocks world.blocks }

def run (world : World Block) (events : List (Event Block)) : World Block :=
  events.foldl step world

end World

end FuelCore.BlockAggregator
