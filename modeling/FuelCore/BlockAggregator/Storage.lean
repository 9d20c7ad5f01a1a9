import FuelCore.Lib.Range
import Mathlib.Data.List.DropRight

/-! # The block aggregator's storage

`services/block_aggregator_api/src/db`. The aggregator keeps what it aggregates in one of two
ways. `StorageDB` writes each block to the `Blocks` table of its database and the height, as
`Mode::Local`, to `LatestBlock`. `RemoteCache` uploads each block to an S3 bucket under the key
`block_height_to_key` makes of its height, when it publishes, and writes only the height, as
`Mode::S3`, to its database. Both refuse a block that does not follow the latest one.

The providers answer range queries from the same database. `StorageBlocksProvider` streams the
blocks of the `Blocks` table one height after another until it passes the last height of the
range or meets a height the table does not hold; `RemoteBlocksProvider` refuses a range that
ends past the latest height and answers each height of the range with where its object lies.

Blocks are of any type, and the object under a key is the block itself: the gzip encoding of
the upload is left out, as are the failures of the database and of S3.
-/

namespace FuelCore.BlockAggregator

variable {Block : Type}

/-- `Mode`: where the latest block went. -/
inductive Mode
  | «local» (height : UInt32)
  | s3 (height : UInt32)
  deriving DecidableEq, Repr

/-- `Mode::height`. -/
def Mode.height : Mode → UInt32
  | .local height => height
  | .s3 height => height

/-- The causes of the storage's `Error::DB`s, with the values their messages print. -/
inductive DbError
  /-- `StorageDB::store_block`: "Cannot store block at height {:?}, expected height {:?}". -/
  | cannotStoreBlock (height expected : UInt32)
  /-- `RemoteCache::store_block`: "Cannot store block at height {}: current height is {},
  expected next height is {}". -/
  | cannotStoreBlockRemote (height current expected : UInt32)
  /-- `RemoteBlocksProvider::get_block_range`: "Requested block height {} is greater than
  current synced height {}". -/
  | aboveSyncedHeight (last current : UInt32)
  deriving DecidableEq, Repr

/-! ## Keys of the bucket -/

/-- `BlockHeight::to_bytes`: the four bytes of the height, most significant first. -/
def toBytes (height : UInt32) : List UInt8 :=
  [(height >>> 24).toUInt8, (height >>> 16).toUInt8, (height >>> 8).toUInt8, height.toUInt8]

/-- `{:02x}`: a byte as two lower-case hexadecimal digits. -/
def hexByte (byte : UInt8) : List Char :=
  [Nat.digitChar (byte.toNat / 16), Nat.digitChar (byte.toNat % 16)]

/-- `block_height_to_key`: the bytes of the height in hexadecimal, separated by slashes. -/
def blockHeightToKey (height : UInt32) : String :=
  String.ofList (['/'].intercalate ((toBytes height).map hexByte))

structure PublicHttpConfig where
  baseUrl : String
  headers : List (String × String)
  deriving DecidableEq, Repr

/-- `public_http_object_url`: the base without its trailing slashes, a slash, and the key
without its leading ones. -/
def publicHttpObjectUrl (base key : String) : String :=
  String.ofList (base.toList.rdropWhile (· = '/') ++ '/' :: key.toList.dropWhile (· = '/'))

/-! ## The local database -/

/-- `StorageDB`: the `Blocks` table and the `LatestBlock` entry of its database. -/
structure StorageDB (Block : Type) where
  blocks : UInt32 → Option Block
  latestBlock : Option Mode

namespace StorageDB

def empty : StorageDB Block :=
  ⟨fun _ => none, none⟩

/-- `StorageDB::get_current_height`, and `StorageBlocksProvider::get_current_height` over the
same database. -/
def getCurrentHeight (db : StorageDB Block) : Option UInt32 :=
  db.latestBlock.map Mode.height

/-- The transaction of `store_block`: the block into `Blocks`, `Mode::Local` into
`LatestBlock`. -/
def write (db : StorageDB Block) (height : UInt32) (block : Block) : StorageDB Block :=
  ⟨Function.update db.blocks height (some block), some (.local height)⟩

/-- `StorageDB::store_block`. -/
def storeBlock (db : StorageDB Block) (height : UInt32) (block : Block) :
    Except DbError (StorageDB Block) :=
  match db.getCurrentHeight with
  | some currentHeight =>
      match currentHeight.checkedAdd 1 with
      | some nextHeight =>
          if height ≠ nextHeight then .error (.cannotStoreBlock height nextHeight)
          else .ok (db.write height block)
      | none => .ok (db.write height block)
  | none => .ok (db.write height block)

end StorageDB

/-- `StorageStream`: the height to read next, if any, and the last height of the range. -/
structure StorageStream where
  next : Option UInt32
  last : UInt32
  deriving DecidableEq, Repr

namespace StorageStream

/-- `StorageStream::new`. -/
def new (first last : UInt32) : StorageStream :=
  ⟨some first, last⟩

/-- `StorageStream::poll_next` over the blocks of a view: the block at the next height and
the stream past it, or the end of the stream where the view holds no block there. -/
def pollNext (blocks : UInt32 → Option Block) (stream : StorageStream) :
    Option (UInt32 × Block) × StorageStream :=
  match stream.next with
  | none => (none, stream)
  | some height =>
      match blocks height with
      | some block =>
          (some (height, block),
            { stream with next := if height < stream.last then some (height + 1) else none })
      | none => (none, { stream with next := none })

/-- What a reader collects from the stream in at most `fuel` polls, stopping at its end. -/
def collect (blocks : UInt32 → Option Block) : ℕ → StorageStream → List (UInt32 × Block)
  | 0, _ => []
  | fuel + 1, stream =>
      match stream.pollNext blocks with
      | (some item, next) => item :: collect blocks fuel next
      | (none, _) => []

end StorageStream

/-! ## The remote bucket -/

/-- `RemoteBlockPayload`: where a block of a remote range lies. -/
inductive RemoteBlockPayload
  /-- `RemoteS3Response`. -/
  | s3 (bucket key : String) (requesterPays : Bool) (awsEndpoint : Option String)
  /-- `RemoteHttpResponse`. -/
  | http (url : String) (headers : List (String × String))
  deriving DecidableEq, Repr

/-- `RemoteCache` and `RemoteBlocksProvider` over one database and one bucket: the
configuration of both, the objects of the bucket and the `LatestBlock` entry. -/
structure Remote (Block : Type) where
  s3Bucket : String
  publishesBlocks : Bool
  requesterPays : Bool
  awsEndpoint : Option String
  publicHttp : Option PublicHttpConfig
  objects : String → Option Block
  latestBlock : Option Mode

namespace Remote

/-- `RemoteCache::get_current_height`, and `RemoteBlocksProvider::get_current_height` over the
same database. -/
def getCurrentHeight (remote : Remote Block) : Option UInt32 :=
  remote.latestBlock.map Mode.height

/-- The writes of `store_block`: the upload of the block when the cache publishes, then
`Mode::S3` into `LatestBlock`. -/
def write (remote : Remote Block) (height : UInt32) (block : Block) : Remote Block :=
  { remote with
    objects := if remote.publishesBlocks then
        Function.update remote.objects (blockHeightToKey height) (some block)
      else remote.objects
    latestBlock := some (.s3 height) }

/-- `RemoteCache::store_block`. -/
def storeBlock (remote : Remote Block) (height : UInt32) (block : Block) :
    Except DbError (Remote Block) :=
  match remote.getCurrentHeight with
  | some currentHeight =>
      match currentHeight.checkedAdd 1 with
      | some nextHeight =>
          if nextHeight ≠ height then
            .error (.cannotStoreBlockRemote height currentHeight nextHeight)
          else .ok (remote.write height block)
      | none => .ok (remote.write height block)
  | none => .ok (remote.write height block)

/-- The payload `stream_blocks` gives for one height. -/
def payload (remote : Remote Block) (height : UInt32) : RemoteBlockPayload :=
  let key := blockHeightToKey height
  match remote.publicHttp with
  | some config => .http (publicHttpObjectUrl config.baseUrl key) config.headers
  | none => .s3 remote.s3Bucket key remote.requesterPays remote.awsEndpoint

/-- `RemoteBlocksProvider::stream_blocks`: every height of `first..=last` with its payload. -/
def streamBlocks (remote : Remote Block) (first last : UInt32) :
    List (UInt32 × RemoteBlockPayload) :=
  (RangeInclusive.mk first last).toList.map fun height => (height, remote.payload height)

end Remote

/-! ## Either storage -/

/-- `BlockRangeResponse`, as the reader of its stream receives it. -/
inductive BlockRangeResponse (Block : Type)
  | bytes (blocks : List (UInt32 × Block))
  | remote (payloads : List (UInt32 × RemoteBlockPayload))

/-- `StorageOrRemoteDB`, with the provider over the same database beside each writer. -/
inductive StorageOrRemoteDB (Block : Type)
  | remote (remote : Remote Block)
  | storage (db : StorageDB Block)

namespace StorageOrRemoteDB

/-- `StorageOrRemoteBlocksProvider::get_current_height`. -/
def getCurrentHeight : StorageOrRemoteDB Block → Option UInt32
  | .remote cache => cache.getCurrentHeight
  | .storage db => db.getCurrentHeight

/-- `StorageOrRemoteDB::store_block`. -/
def storeBlock : StorageOrRemoteDB Block → UInt32 → Block → Except DbError (StorageOrRemoteDB Block)
  | .remote cache, height, block => (cache.storeBlock height block).map .remote
  | .storage db, height, block => (db.storeBlock height block).map .storage

/-- `StorageOrRemoteBlocksProvider::get_block_range`. The local stream is read to its end: it
ends after at most `last - first + 1` polls. -/
def getBlockRange : StorageOrRemoteDB Block → UInt32 → UInt32 →
    Except DbError (BlockRangeResponse Block)
  | .remote cache, first, last =>
      let currentHeight := cache.getCurrentHeight.getD 0
      if last > currentHeight then .error (.aboveSyncedHeight last currentHeight)
      else .ok (.remote (cache.streamBlocks first last))
  | .storage db, first, last =>
      .ok (.bytes ((StorageStream.new first last).collect db.blocks
        (last.toNat - first.toNat + 1)))

/-- The block a storage keeps at a height: in its `Blocks` table, or in the bucket under the
height's key when it publishes. -/
def block? : StorageOrRemoteDB Block → UInt32 → Option Block
  | .remote cache, height =>
      if cache.publishesBlocks then cache.objects (blockHeightToKey height) else none
  | .storage db, height => db.blocks height

/-- A storage that keeps the blocks it stores: a local one, or a remote one that publishes. -/
def KeepsBlocks : StorageOrRemoteDB Block → Prop
  | .remote cache => cache.publishesBlocks = true
  | .storage _ => True

end StorageOrRemoteDB

end FuelCore.BlockAggregator
