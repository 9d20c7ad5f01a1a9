import FuelCore.Executor.Types

/-! # The temporal registry of the compression service

`services/compression/src/temporal_registry.rs` keeps, for each of five keyspaces, a table from
registry keys to values, one reverse index from values to the key that holds them, and the time
each key was last written. `impl_temporal_registry!` writes the same `write_registry` for each
keyspace; here it is one function of the keyspace, and the five tables are one map keyed by
`TimestampKey`, the keyspace with the key. A value reaches the index through its `ReverseKey`:
the identifier itself for addresses, asset ids and contract ids, and the hash of the code for
script and predicate code. The hash is an argument of the model. The storage transaction under
the wrapper does not fail here, so a write returns the new storage.

Over any sequence of writes the tables stay consistent: an index entry names a key whose value
has that reverse key, and which has a timestamp.
-/

namespace FuelCore.Compression

open FuelCore.Executor (Bytes32 Address AssetId ContractId)

/-- `fuel_compression::RegistryKey`: three bytes. -/
abbrev RegistryKey := Fin (2 ^ 24)

abbrev Tai64 := UInt64

/-- The bytes of a `ScriptCode` or a `PredicateCode`. -/
abbrev Code := List UInt8

inductive TimestampKeyspace
  | address
  | assetId
  | contractId
  | scriptCode
  | predicateCode
  deriving DecidableEq, Repr

namespace TimestampKeyspace

/-- The type of the values of a keyspace's table. -/
@[reducible] def Value : TimestampKeyspace → Type
  | .address => Address
  | .assetId => AssetId
  | .contractId => ContractId
  | .scriptCode => Code
  | .predicateCode => Code

instance : (keyspace : TimestampKeyspace) → DecidableEq keyspace.Value
  | .address => inferInstanceAs (DecidableEq Address)
  | .assetId => inferInstanceAs (DecidableEq AssetId)
  | .contractId => inferInstanceAs (DecidableEq ContractId)
  | .scriptCode => inferInstanceAs (DecidableEq Code)
  | .predicateCode => inferInstanceAs (DecidableEq Code)

end TimestampKeyspace

inductive ReverseKey
  | address (address : Address)
  | assetId (assetId : AssetId)
  | contractId (contractId : ContractId)
  | scriptCode (hash : Bytes32)
  | predicateCode (hash : Bytes32)
  deriving DecidableEq, Repr

/-- The keyspace whose values a reverse key indexes. -/
def ReverseKey.keyspace : ReverseKey → TimestampKeyspace
  | .address _ => .address
  | .assetId _ => .assetId
  | .contractId _ => .contractId
  | .scriptCode _ => .scriptCode
  | .predicateCode _ => .predicateCode

namespace TimestampKeyspace

variable (hash : Code → Bytes32)

/-- `impl From<&$type> for ReverseKey`. -/
def reverseKey : (keyspace : TimestampKeyspace) → keyspace.Value → ReverseKey
  | .address, identifier => .address identifier
  | .assetId, identifier => .assetId identifier
  | .contractId, identifier => .contractId identifier
  | .scriptCode, code => .scriptCode (hash code)
  | .predicateCode, code => .predicateCode (hash code)

/-- Two values with one reverse key: the same identifier, or code with the same hash. -/
def Identifies : (keyspace : TimestampKeyspace) → keyspace.Value → keyspace.Value → Prop
  | .address, identifier, identifier' => identifier = identifier'
  | .assetId, identifier, identifier' => identifier = identifier'
  | .contractId, identifier, identifier' => identifier = identifier'
  | .scriptCode, code, code' => hash code = hash code'
  | .predicateCode, code, code' => hash code = hash code'

@[simp]
theorem keyspace_reverseKey (keyspace : TimestampKeyspace) (value : keyspace.Value) :
    (keyspace.reverseKey hash value).keyspace = keyspace := by
  cases keyspace <;> rfl

theorem reverseKey_eq_iff (keyspace : TimestampKeyspace) (value value' : keyspace.Value) :
    keyspace.reverseKey hash value = keyspace.reverseKey hash value' ↔
      keyspace.Identifies hash value value' := by
  cases keyspace <;> simp [reverseKey, Identifies]

end TimestampKeyspace

structure TimestampKey where
  keyspace : TimestampKeyspace
  key : RegistryKey
  deriving DecidableEq, Repr

/-- The table that lacked a key, as `not_found!` names it. -/
inductive StorageTable
  | registry (keyspace : TimestampKeyspace)
  | timestamps
  deriving DecidableEq, Repr

/-- The tables of `CompressionStorageWrapper` that the registry reads and writes. -/
structure CompressionStorage where
  registry : AList fun key : TimestampKey => key.keyspace.Value
  registryIndex : AList fun _ : ReverseKey => RegistryKey
  timestamps : AList fun _ : TimestampKey => Tai64

namespace CompressionStorage

variable (hash : Code → Bytes32) (storage : CompressionStorage)

def empty : CompressionStorage := ⟨∅, ∅, ∅⟩

def readRegistry (keyspace : TimestampKeyspace) (key : RegistryKey) :
    Except StorageTable keyspace.Value :=
  match storage.registry.lookup ⟨keyspace, key⟩ with
  | some value => .ok value
  | none => .error (.registry keyspace)

def readTimestamp (keyspace : TimestampKeyspace) (key : RegistryKey) : Except StorageTable Tai64 :=
  match storage.timestamps.lookup ⟨keyspace, key⟩ with
  | some timestamp => .ok timestamp
  | none => .error .timestamps

def writeRegistry (keyspace : TimestampKeyspace) (key : RegistryKey) (value : keyspace.Value)
    (timestamp : Tai64) : CompressionStorage :=
  -- `replace` writes the value and returns the one it overwrote
  let oldValue := storage.registry.lookup ⟨keyspace, key⟩
  let registry := storage.registry.insert ⟨keyspace, key⟩ value
  let registryIndex :=
    match oldValue with
    | some oldValue => storage.registryIndex.erase (keyspace.reverseKey hash oldValue)
    | none => storage.registryIndex
  let registryIndex := registryIndex.insert (keyspace.reverseKey hash value) key
  let timestamps := storage.timestamps.insert ⟨keyspace, key⟩ timestamp
  { registry, registryIndex, timestamps }

def registryIndexLookup (keyspace : TimestampKeyspace) (value : keyspace.Value) :
    Option RegistryKey :=
  storage.registryIndex.lookup (keyspace.reverseKey hash value)

end CompressionStorage

/-- One `write_registry` call. -/
structure RegistryWrite where
  keyspace : TimestampKeyspace
  key : RegistryKey
  value : keyspace.Value
  timestamp : Tai64

namespace CompressionStorage

variable (hash : Code → Bytes32)

def writeAll (storage : CompressionStorage) (writes : List RegistryWrite) : CompressionStorage :=
  writes.foldl (fun storage write =>
    storage.writeRegistry hash write.keyspace write.key write.value write.timestamp) storage

end CompressionStorage

/-- The registrations of a compressed block, table by table. -/
structure RegistrationsPerTable where
  address : List (RegistryKey × Address)
  assetId : List (RegistryKey × AssetId)
  contractId : List (RegistryKey × ContractId)
  scriptCode : List (RegistryKey × Code)
  predicateCode : List (RegistryKey × Code)

namespace RegistrationsPerTable

/-- The registrations of one keyspace as calls at one timestamp. -/
def writesOf (keyspace : TimestampKeyspace) (entries : List (RegistryKey × keyspace.Value))
    (timestamp : Tai64) : List RegistryWrite :=
  entries.map fun (key, value) => ⟨keyspace, key, value, timestamp⟩

/-- `write_to_registry`: the tables in the order the `tables!` macro lists them, each entry in
its order. -/
def writeToRegistry (hash : Code → Bytes32) (registrations : RegistrationsPerTable)
    (registry : CompressionStorage) (timestamp : Tai64) : CompressionStorage :=
  registry.writeAll hash
    (writesOf .address registrations.address timestamp ++
      writesOf .assetId registrations.assetId timestamp ++
      writesOf .contractId registrations.contractId timestamp ++
      writesOf .scriptCode registrations.scriptCode timestamp ++
      writesOf .predicateCode registrations.predicateCode timestamp)

end RegistrationsPerTable

/-! ## Consistency of the three tables -/

namespace CompressionStorage

variable (hash : Code → Bytes32)

/-- The reverse key of the value a key holds in a keyspace, if it holds one. -/
def reverseKeyAt (storage : CompressionStorage) (keyspace : TimestampKeyspace)
    (key : RegistryKey) : Option ReverseKey :=
  (storage.registry.lookup ⟨keyspace, key⟩).map (keyspace.reverseKey hash)

/-- The index names only keys that hold a value with the entry's reverse key and that have a
timestamp. -/
structure Consistent (storage : CompressionStorage) : Prop where
  indexed : ∀ reverseKey key, storage.registryIndex.lookup reverseKey = some key →
    storage.reverseKeyAt hash reverseKey.keyspace key = some reverseKey
  timestamped : ∀ reverseKey key, storage.registryIndex.lookup reverseKey = some key →
    ∃ timestamp, storage.timestamps.lookup ⟨reverseKey.keyspace, key⟩ = some timestamp

variable {hash} {storage : CompressionStorage} {keyspace : TimestampKeyspace} {key : RegistryKey}
  {value : keyspace.Value} {timestamp : Tai64}

theorem consistent_empty : empty.Consistent hash := by
  constructor <;> intro reverseKey key found <;> cases found

theorem reverseKeyAt_writeRegistry_self :
    (storage.writeRegistry hash keyspace key value timestamp).reverseKeyAt hash keyspace key =
      some (keyspace.reverseKey hash value) := by
  simp [reverseKeyAt, writeRegistry]

theorem reverseKeyAt_writeRegistry_of_ne {keyspace' : TimestampKeyspace} {key' : RegistryKey}
    (other : (⟨keyspace, key⟩ : TimestampKey) ≠ ⟨keyspace', key'⟩) :
    (storage.writeRegistry hash keyspace key value timestamp).reverseKeyAt hash keyspace' key' =
      storage.reverseKeyAt hash keyspace' key' := by
  simp only [reverseKeyAt, writeRegistry]
  rw [AList.lookup_insert_ne (Ne.symm other)]

theorem timestamps_writeRegistry (timestampKey : TimestampKey) :
    (storage.writeRegistry hash keyspace key value timestamp).timestamps.lookup timestampKey =
      if timestampKey = ⟨keyspace, key⟩ then some timestamp
      else storage.timestamps.lookup timestampKey := by
  split_ifs with written
  · subst written
    simp [writeRegistry]
  · simp only [writeRegistry]
    rw [AList.lookup_insert_ne written]

theorem registryIndex_writeRegistry (reverseKey : ReverseKey) :
    (storage.writeRegistry hash keyspace key value timestamp).registryIndex.lookup reverseKey =
      if reverseKey = keyspace.reverseKey hash value then some key
      else if storage.reverseKeyAt hash keyspace key = some reverseKey then none
      else storage.registryIndex.lookup reverseKey := by
  have index : (storage.writeRegistry hash keyspace key value timestamp).registryIndex =
      ((storage.reverseKeyAt hash keyspace key).elim storage.registryIndex
        fun overwritten => storage.registryIndex.erase overwritten).insert
        (keyspace.reverseKey hash value) key := by
    simp only [writeRegistry, reverseKeyAt]
    cases storage.registry.lookup ⟨keyspace, key⟩ <;> rfl
  rw [index]
  split_ifs with written overwritten
  · subst written
    exact AList.lookup_insert _
  · rw [AList.lookup_insert_ne written, overwritten]
    exact AList.lookup_erase _ _
  · rw [AList.lookup_insert_ne written]
    cases old : storage.reverseKeyAt hash keyspace key with
    | none => rfl
    | some oldKey =>
        -- the overwritten value had another reverse key
        rw [old] at overwritten
        exact AList.lookup_erase_ne fun same => overwritten (by rw [same])

theorem Consistent.writeRegistry (consistent : storage.Consistent hash) :
    (storage.writeRegistry hash keyspace key value timestamp).Consistent hash := by
  constructor
  · intro reverseKey key' found
    rw [registryIndex_writeRegistry] at found
    split_ifs at found with written overwritten
    · cases found
      subst written
      rw [TimestampKeyspace.keyspace_reverseKey]
      exact reverseKeyAt_writeRegistry_self
    · -- an entry the write left alone (the overwritten value's is dropped) names another key, or it was the overwritten one
      have before := consistent.indexed reverseKey key' found
      by_cases same : (⟨keyspace, key⟩ : TimestampKey) = ⟨reverseKey.keyspace, key'⟩
      · obtain ⟨sameKeyspace, sameKey⟩ := TimestampKey.mk.inj same
        rw [← sameKeyspace, ← sameKey] at before
        exact absurd before overwritten
      · rw [reverseKeyAt_writeRegistry_of_ne same]
        exact before
  · intro reverseKey key' found
    rw [registryIndex_writeRegistry] at found
    rw [timestamps_writeRegistry]
    by_cases stamped : (⟨reverseKey.keyspace, key'⟩ : TimestampKey) = ⟨keyspace, key⟩
    · rw [if_pos stamped]
      exact ⟨timestamp, rfl⟩
    · rw [if_neg stamped]
      split_ifs at found with written
      · -- the written value's entry names the written key, which was just stamped
        cases found
        subst written
        exact absurd (by rw [TimestampKeyspace.keyspace_reverseKey]) stamped
      · exact consistent.timestamped reverseKey key' found

theorem Consistent.writeAll (consistent : storage.Consistent hash) (writes : List RegistryWrite) :
    (storage.writeAll hash writes).Consistent hash := by
  induction writes generalizing storage with
  | nil => exact consistent
  | cons write writes induction =>
      exact induction consistent.writeRegistry

theorem Consistent.readRegistry_of_lookup (consistent : storage.Consistent hash)
    (found : storage.registryIndexLookup hash keyspace value = some key) :
    ∃ value', storage.readRegistry keyspace key = .ok value' ∧
      keyspace.Identifies hash value' value ∧
      ∃ timestamp, storage.readTimestamp keyspace key = .ok timestamp := by
  have indexed := consistent.indexed _ key found
  obtain ⟨timestamp, stamped⟩ := consistent.timestamped _ key found
  rw [TimestampKeyspace.keyspace_reverseKey] at indexed stamped
  obtain ⟨value', held, same⟩ := Option.map_eq_some_iff.mp indexed
  refine ⟨value', ?_, (TimestampKeyspace.reverseKey_eq_iff hash keyspace value' value).mp same,
    timestamp, ?_⟩
  · simp only [readRegistry, held]
  · simp only [readTimestamp, stamped]

end CompressionStorage

theorem RegistrationsPerTable.writeToRegistry_consistent {hash : Code → Bytes32}
    {registry : CompressionStorage} (registrations : RegistrationsPerTable) (timestamp : Tai64)
    (consistent : registry.Consistent hash) :
    (registrations.writeToRegistry hash registry timestamp).Consistent hash :=
  consistent.writeAll _

open CompressionStorage in
/-- From a consistent registry, any sequence of writes leaves it consistent, and the key the
index gives for a value holds that value (up to the hash of code) and has a timestamp. -/
theorem temporal_registry_stays_consistent (hash : Code → Bytes32) (storage : CompressionStorage)
    (consistent : storage.Consistent hash) (writes : List RegistryWrite) :
    (storage.writeAll hash writes).Consistent hash ∧
      ∀ keyspace value key,
        (storage.writeAll hash writes).registryIndexLookup hash keyspace value = some key →
        ∃ value', (storage.writeAll hash writes).readRegistry keyspace key = .ok value' ∧
          keyspace.Identifies hash value' value ∧
          ∃ timestamp, (storage.writeAll hash writes).readTimestamp keyspace key = .ok timestamp := by
  have stays := consistent.writeAll writes
  exact ⟨stays, fun _ _ _ found => stays.readRegistry_of_lookup found⟩

/-- Address 7 under key 1, then again under key 2, then key 1 overwritten by address 8. -/
def reassignedAddress : List RegistryWrite :=
  [⟨.address, 1, (7 : Address), 10⟩, ⟨.address, 2, (7 : Address), 11⟩,
    ⟨.address, 1, (8 : Address), 12⟩]

/-- The overwrite of key 1 drops the index entry of address 7, which now pointed to key 2: the
index forgets a value that key 2 still holds, and stays consistent. -/
example : (CompressionStorage.empty.writeAll List.length reassignedAddress).registryIndexLookup
      List.length .address (7 : Address) = none ∧
    (CompressionStorage.empty.writeAll List.length reassignedAddress).readRegistry .address 2 =
      .ok (7 : Address) := by
  decide

theorem reassigned_address_stays_consistent :
    CompressionStorage.empty.Consistent List.length ∧
      (CompressionStorage.empty.writeAll List.length reassignedAddress).Consistent List.length ∧
      ∀ keyspace value key,
        (CompressionStorage.empty.writeAll List.length reassignedAddress).registryIndexLookup
          List.length keyspace value = some key →
        ∃ value', (CompressionStorage.empty.writeAll List.length reassignedAddress).readRegistry
            keyspace key = .ok value' ∧
          keyspace.Identifies List.length value' value ∧
          ∃ timestamp, (CompressionStorage.empty.writeAll List.length reassignedAddress).readTimestamp
            keyspace key = .ok timestamp :=
  ⟨CompressionStorage.consistent_empty, temporal_registry_stays_consistent _ _
    CompressionStorage.consistent_empty _⟩

end FuelCore.Compression
