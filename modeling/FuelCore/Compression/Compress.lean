import FuelCore.Compression.TemporalRegistry

/-! # Registry keys for the values of a compressed block

`compression/src/compress.rs` replaces every address, asset id, contract id, script code and
predicate code of a block by a three-byte `RegistryKey`, and `decompress.rs` reads the values
back. The compressor makes two passes over the block. `PrepareCtx` pins, per keyspace, the key
the registry already holds a value under when its timestamp is still accessible. `CompressCtx`
then gives each value the `DEFAULT_VALUE` key if it is the default, the key it was registered
under earlier in the block, the key the registry holds it under if still accessible, or else a
new key from the keyspace's `CacheEvictor`, which skips the pinned keys and every key it gave
before. The new values are the block's registrations: `finalize` writes them to the registry at
the block's timestamp, and the decompressor writes them too before it reads any key.

The derive macros of `fuel-compression`, outside this repository, walk the transactions in the
same order in every pass; a block here is the list of registry values they meet, in that order,
each with its keyspace, and the compressed block the key in place of each. `RegistryKey::next`
is also `fuel-compression`'s and is an argument, as the hash of code is.
-/

namespace FuelCore.Compression

open FuelCore.Executor (Bytes32 Address AssetId ContractId)

/-- `RegistryKey::ZERO`. -/
def RegistryKey.zero : RegistryKey := ⟨0, Nat.two_pow_pos 24⟩

/-- `RegistryKey::DEFAULT_VALUE`, three bytes `0xff`: the key of a keyspace's default value. -/
def RegistryKey.defaultValue : RegistryKey := ⟨2 ^ 24 - 1, by decide⟩

/-- `Default::default()` of a keyspace's values: the zero identifier, or empty code. -/
def TimestampKeyspace.default : (keyspace : TimestampKeyspace) → keyspace.Value
  | .address => (0 : Address)
  | .assetId => (0 : AssetId)
  | .contractId => (0 : ContractId)
  | .scriptCode => ([] : Code)
  | .predicateCode => ([] : Code)

/-- A value of one of the keyspaces, where the derive macros meet one in a transaction. -/
structure RegistryValue where
  keyspace : TimestampKeyspace
  value : keyspace.Value

/-- `Config`. The retention is kept in whole seconds: the difference of two whole-second
timestamps compares with a `Duration` as with its seconds. -/
structure Config where
  temporalRegistryRetention : ℕ

/-- The failures of compression and decompression of registry values. `keysExhausted` is the
loop of `CacheEvictor::next_key` when every key is kept: it never ends. -/
inductive CompressionError
  | notFound (table : StorageTable)
  | invalidTimestampOrdering
  | timestampNotAccessible
  | keysExhausted
  deriving DecidableEq, Repr

/-- `Config::is_timestamp_accessible`: `duration_since` fails for a key newer than the block. -/
def Config.isTimestampAccessible (config : Config) (blockTimestamp keyTimestamp : Tai64) :
    Except CompressionError Bool :=
  if keyTimestamp ≤ blockTimestamp then
    .ok ((blockTimestamp - keyTimestamp).toNat ≤ config.temporalRegistryRetention)
  else .error .invalidTimestampOrdering

/-! ## The cache evictor -/

/-- `CacheEvictor`, for one keyspace. -/
structure CacheEvictor where
  keepKeys : Finset RegistryKey
  nextKey : RegistryKey

section Evictor

variable (next : RegistryKey → RegistryKey)

/-- `CacheEvictor::new_from_db`, from the latest key the evictor database holds. -/
def CacheEvictor.newFromDb (latestKey : Option RegistryKey) (keepKeys : Finset RegistryKey) :
    CacheEvictor :=
  ⟨keepKeys, match latestKey with
    | some latestKey => next latestKey
    | none => RegistryKey.zero⟩

/-- The loop of `next_key`, stepping past kept keys at most `fuel` times. -/
def skipKeptKeys (keepKeys : Finset RegistryKey) : ℕ → RegistryKey → Option RegistryKey
  | 0, _ => none
  | fuel + 1, key => if key ∈ keepKeys then skipKeptKeys keepKeys fuel (next key) else some key

/-- `next_key`: the first key from `next_key` on that is not kept, and it is kept from then
on. Every key the loop can reach is among its first `2 ^ 24`, so when these are all kept the
loop never ends, which is `none`. (`debug_assert!` only checks the size of the kept set.) -/
def CacheEvictor.nextKey? (evictor : CacheEvictor) : Option (RegistryKey × CacheEvictor) :=
  (skipKeptKeys next evictor.keepKeys (2 ^ 24) evictor.nextKey).map fun key =>
    (key, ⟨insert key evictor.keepKeys, key⟩)

end Evictor

/-! ## Compression -/

/-- The tables the compressor reads and writes: the registry, and per keyspace the latest key
its evictor assigned (`EvictorCache`). -/
structure CompressDb where
  storage : CompressionStorage
  evictorCache : TimestampKeyspace → Option RegistryKey

/-- The keys `PrepareCtx` collects, per keyspace. -/
abbrev AccessedKeys := TimestampKeyspace → Finset RegistryKey

/-- `CompressCtxKeyspace`. `changes_lookup` is the reverse of `changes` and is read off it. -/
structure CompressCtxKeyspace (keyspace : TimestampKeyspace) where
  cacheEvictor : CacheEvictor
  changes : List (RegistryKey × keyspace.Value)

/-- `changes_lookup.get(value)`: the key the value was registered under earlier in the block. -/
def CompressCtxKeyspace.changesLookup {keyspace : TimestampKeyspace}
    (ctx : CompressCtxKeyspace keyspace) (value : keyspace.Value) : Option RegistryKey :=
  (ctx.changes.find? fun change => decide (change.2 = value)).map Prod.fst

/-- `CompressCtx`: a context per keyspace. -/
abbrev CompressCtx := (keyspace : TimestampKeyspace) → CompressCtxKeyspace keyspace

/-- A compressed block: its registrations, and the key in place of each value. -/
structure CompressedBlock where
  registrations : RegistrationsPerTable
  keys : List (TimestampKeyspace × RegistryKey)

section Passes

variable (hash : Code → Bytes32) (config : Config) (timestamp : Tai64)

/-- `CompressibleBy<PrepareCtx>` of a registry value: pin the key the registry holds it under,
when that key's timestamp is still accessible. -/
def prepareValue (storage : CompressionStorage) (accessedKeys : AccessedKeys)
    (item : RegistryValue) : Except CompressionError AccessedKeys :=
  if item.value = item.keyspace.default then .ok accessedKeys
  else
    match storage.registryIndexLookup hash item.keyspace item.value with
    | none => .ok accessedKeys
    | some found =>
        if found ∈ accessedKeys item.keyspace then .ok accessedKeys
        else do
          let keyTimestamp ← (storage.readTimestamp item.keyspace found).mapError .notFound
          if ← config.isTimestampAccessible timestamp keyTimestamp then
            pure (Function.update accessedKeys item.keyspace
              (insert found (accessedKeys item.keyspace)))
          else pure accessedKeys

/-- `into_compression_context`: an evictor per keyspace, from the evictor database, that
keeps the pinned keys. -/
def intoCompressionContext (next : RegistryKey → RegistryKey)
    (evictorCache : TimestampKeyspace → Option RegistryKey) (accessedKeys : AccessedKeys) :
    CompressCtx :=
  fun keyspace => ⟨CacheEvictor.newFromDb next (evictorCache keyspace) (accessedKeys keyspace), []⟩

/-- The key the registry holds a value under, when its timestamp is still accessible. -/
def accessibleKey (storage : CompressionStorage) (keyspace : TimestampKeyspace)
    (value : keyspace.Value) : Except CompressionError (Option RegistryKey) :=
  match storage.registryIndexLookup hash keyspace value with
  | none => .ok none
  | some found => do
      let keyTimestamp ← (storage.readTimestamp keyspace found).mapError .notFound
      if ← config.isTimestampAccessible timestamp keyTimestamp then pure (some found)
      else pure none

/-- `CompressibleBy<CompressCtx>` of a registry value. -/
def compressValue (storage : CompressionStorage) (next : RegistryKey → RegistryKey)
    (ctx : CompressCtx) (item : RegistryValue) :
    Except CompressionError (RegistryKey × CompressCtx) :=
  if item.value = item.keyspace.default then .ok (RegistryKey.defaultValue, ctx)
  else
    match (ctx item.keyspace).changesLookup item.value with
    | some found => .ok (found, ctx)
    | none => do
        match ← accessibleKey hash config timestamp storage item.keyspace item.value with
        | some found => pure (found, ctx)
        | none =>
            match (ctx item.keyspace).cacheEvictor.nextKey? next with
            | none => .error .keysExhausted
            | some (key, cacheEvictor) =>
                pure (key, Function.update ctx item.keyspace
                  ⟨cacheEvictor, (ctx item.keyspace).changes ++ [(key, item.value)]⟩)

/-- The `CompressCtx` pass over the block's values, in order. -/
def compressValues (storage : CompressionStorage) (next : RegistryKey → RegistryKey) :
    List RegistryValue → CompressCtx →
      Except CompressionError (List (TimestampKeyspace × RegistryKey) × CompressCtx)
  | [], ctx => .ok ([], ctx)
  | item :: items, ctx => do
      let (key, ctx) ← compressValue hash config timestamp storage next ctx item
      let (keys, ctx) ← compressValues storage next items ctx
      pure ((item.keyspace, key) :: keys, ctx)

/-- The order in which `HashMap::into_iter` yields a keyspace's changes, which the model
keeps in the order they were made. Rust leaves it unspecified: the results hold for every order
that is a permutation. -/
abbrev IterationOrder :=
  (keyspace : TimestampKeyspace) → List (RegistryKey × keyspace.Value) →
    List (RegistryKey × keyspace.Value)

/-- The registrations `finalize` collects, each keyspace's changes in iteration order. -/
def registrationsOf (intoIter : IterationOrder) (ctx : CompressCtx) : RegistrationsPerTable :=
  ⟨intoIter .address (ctx .address).changes, intoIter .assetId (ctx .assetId).changes,
    intoIter .contractId (ctx .contractId).changes, intoIter .scriptCode (ctx .scriptCode).changes,
    intoIter .predicateCode (ctx .predicateCode).changes⟩

/-- `finalize`: each evictor's key goes to the evictor database, then the registrations to the
registry at the block's timestamp. -/
def finalize (intoIter : IterationOrder) (db : CompressDb) (ctx : CompressCtx) :
    CompressDb × RegistrationsPerTable :=
  let registrations := registrationsOf intoIter ctx
  (⟨registrations.writeToRegistry hash db.storage timestamp,
    fun keyspace => some (ctx keyspace).cacheEvictor.nextKey⟩, registrations)

/-- `compress`, for the registry values of a block with timestamp `timestamp`. -/
def compress (next : RegistryKey → RegistryKey) (intoIter : IterationOrder) (db : CompressDb)
    (block : List RegistryValue) : Except CompressionError (CompressedBlock × CompressDb) := do
  let accessedKeys ← block.foldlM (prepareValue hash config timestamp db.storage) fun _ => ∅
  let ctx := intoCompressionContext next db.evictorCache accessedKeys
  let (keys, ctx) ← compressValues hash config timestamp db.storage next block ctx
  let (db, registrations) := finalize hash timestamp intoIter db ctx
  pure (⟨registrations, keys⟩, db)

/-! ## Decompression -/

/-- `DecompressibleBy<DecompressCtx>` of a keyspace's values. -/
def decompressValue (storage : CompressionStorage) (keyspace : TimestampKeyspace)
    (key : RegistryKey) : Except CompressionError keyspace.Value :=
  if key = RegistryKey.defaultValue then .ok keyspace.default
  else do
    let keyTimestamp ← (storage.readTimestamp keyspace key).mapError .notFound
    if !(← config.isTimestampAccessible timestamp keyTimestamp) then .error .timestampNotAccessible
    else (storage.readRegistry keyspace key).mapError .notFound

/-- `decompress`, for the registry values: the registrations are written first, then every key
is read. -/
def decompress (storage : CompressionStorage) (block : CompressedBlock) :
    Except CompressionError (List RegistryValue × CompressionStorage) := do
  let storage := block.registrations.writeToRegistry hash storage timestamp
  let values ← block.keys.mapM fun (keyspace, key) => do
    let value ← decompressValue config timestamp storage keyspace key
    pure (⟨keyspace, value⟩ : RegistryValue)
  pure (values, storage)

end Passes

/-! ## Blocks in sequence

`compress` "must be called for all new blocks in sequence": the compression service runs it on
each block in turn, and a node that decompresses runs `decompress` on the compressed blocks in
the same order, each at the time of its header. -/

section Sequence

variable (hash : Code → Bytes32) (config : Config)

/-- The compressor over a sequence of blocks, each with the time of its header. -/
def compressBlocks (next : RegistryKey → RegistryKey) (intoIter : IterationOrder) :
    CompressDb → List (Tai64 × List RegistryValue) →
      Except CompressionError (List (Tai64 × CompressedBlock) × CompressDb)
  | db, [] => .ok ([], db)
  | db, (timestamp, block) :: blocks => do
      let (compressed, db) ← compress hash config timestamp next intoIter db block
      let (compressedBlocks, db) ← compressBlocks next intoIter db blocks
      pure ((timestamp, compressed) :: compressedBlocks, db)

/-- The decompressor over a sequence of compressed blocks. -/
def decompressBlocks : CompressionStorage → List (Tai64 × CompressedBlock) →
    Except CompressionError (List (List RegistryValue) × CompressionStorage)
  | storage, [] => .ok ([], storage)
  | storage, (timestamp, compressed) :: compressedBlocks => do
      let (block, storage) ← decompress hash config timestamp storage compressed
      let (blocks, storage) ← decompressBlocks storage compressedBlocks
      pure (block :: blocks, storage)

end Sequence

end FuelCore.Compression
