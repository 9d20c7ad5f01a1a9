import FuelCore.Compression.Compress
import FuelCore.Lib.Except
import Mathlib.Logic.Equiv.List

/-! # A compressed block reads back as the block

A node that decompresses, from the registry the compressor started from, gets every value of
the block back. The argument has three parts. The prepare pass pins every key the registry still
holds a value of the block under. The compress pass keeps its new keys fresh (kept by the
evictor, distinct, never pinned and never `DEFAULT_VALUE`) and gives each value its key in one
of three ways (`Substitutes`). The registrations then write the new keys only: a pinned key still
reads the value it held, and a new key reads the value registered under it, at a timestamp that
is accessible from the block's own.
-/

namespace FuelCore.Compression

open FuelCore.Executor (Bytes32 Address AssetId)

theorem RegistryKey.zero_ne_defaultValue : RegistryKey.zero ≠ RegistryKey.defaultValue := by
  decide

theorem Config.isTimestampAccessible_self (config : Config) (timestamp : Tai64) :
    config.isTimestampAccessible timestamp timestamp = .ok true := by
  simp [Config.isTimestampAccessible]

theorem TimestampKeyspace.eq_of_identifies {hash : Code → Bytes32}
    (hashInjective : Function.Injective hash) {keyspace : TimestampKeyspace}
    {value value' : keyspace.Value} (same : keyspace.Identifies hash value value') :
    value = value' := by
  cases keyspace with
  | address | assetId | contractId => exact same
  | scriptCode | predicateCode => exact hashInjective same

/-! ## Reads after writes -/

namespace CompressionStorage

variable {hash : Code → Bytes32} {storage : CompressionStorage} {keyspace : TimestampKeyspace}
  {key : RegistryKey} {value : keyspace.Value} {timestamp : Tai64}

theorem reads_writeRegistry_self :
    (storage.writeRegistry hash keyspace key value timestamp).readRegistry keyspace key =
        .ok value ∧
      (storage.writeRegistry hash keyspace key value timestamp).readTimestamp keyspace key =
        .ok timestamp := by
  simp [readRegistry, readTimestamp, writeRegistry]

theorem reads_writeRegistry_of_ne {keyspace' : TimestampKeyspace} {key' : RegistryKey}
    {value' : keyspace'.Value} (other : (⟨keyspace', key'⟩ : TimestampKey) ≠ ⟨keyspace, key⟩) :
    (storage.writeRegistry hash keyspace' key' value' timestamp).readRegistry keyspace key =
        storage.readRegistry keyspace key ∧
      (storage.writeRegistry hash keyspace' key' value' timestamp).readTimestamp keyspace key =
        storage.readTimestamp keyspace key := by
  simp only [readRegistry, readTimestamp, writeRegistry]
  rw [AList.lookup_insert_ne (Ne.symm other), AList.lookup_insert_ne (Ne.symm other)]
  exact ⟨rfl, rfl⟩

theorem reads_writeAll_of_unwritten (writes : List RegistryWrite)
    (unwritten : ∀ write ∈ writes, (⟨write.keyspace, write.key⟩ : TimestampKey) ≠ ⟨keyspace, key⟩) :
    (storage.writeAll hash writes).readRegistry keyspace key = storage.readRegistry keyspace key ∧
      (storage.writeAll hash writes).readTimestamp keyspace key =
        storage.readTimestamp keyspace key := by
  induction writes generalizing storage with
  | nil => exact ⟨rfl, rfl⟩
  | cons write writes induction =>
      have other := unwritten write List.mem_cons_self
      obtain ⟨registry, timestamps⟩ :=
        induction fun write' member => unwritten write' (List.mem_cons_of_mem _ member)
      exact ⟨registry.trans (reads_writeRegistry_of_ne other).1,
        timestamps.trans (reads_writeRegistry_of_ne other).2⟩

theorem reads_writeAll_of_only {writes : List RegistryWrite} {write : RegistryWrite}
    (written : write ∈ writes)
    (only : ∀ write' ∈ writes, (⟨write'.keyspace, write'.key⟩ : TimestampKey) =
      ⟨write.keyspace, write.key⟩ → write' = write) :
    (storage.writeAll hash writes).readRegistry write.keyspace write.key = .ok write.value ∧
      (storage.writeAll hash writes).readTimestamp write.keyspace write.key =
        .ok write.timestamp := by
  induction writes generalizing storage with
  | nil => cases written
  | cons first writes induction =>
      have only' : ∀ write' ∈ writes, (⟨write'.keyspace, write'.key⟩ : TimestampKey) =
          ⟨write.keyspace, write.key⟩ → write' = write :=
        fun write' member => only write' (List.mem_cons_of_mem _ member)
      by_cases later : write ∈ writes
      · exact induction later only'
      · -- the write is the first one, and no later write names its key
        have first_eq : first = write := (List.mem_cons.mp written).elim Eq.symm
          fun member => absurd member later
        subst first_eq
        have unwritten : ∀ write' ∈ writes, (⟨write'.keyspace, write'.key⟩ : TimestampKey) ≠
            ⟨first.keyspace, first.key⟩ :=
          fun write' member named => later (only' write' member named ▸ member)
        rw [writeAll, List.foldl_cons, ← writeAll, (reads_writeAll_of_unwritten writes unwritten).1,
          (reads_writeAll_of_unwritten writes unwritten).2]
        exact reads_writeRegistry_self

/-- No index entry names `DEFAULT_VALUE`, which every reader takes for the default value. -/
def IndexAvoidsDefault (storage : CompressionStorage) : Prop :=
  ∀ reverseKey, storage.registryIndex.lookup reverseKey ≠ some RegistryKey.defaultValue

theorem IndexAvoidsDefault.writeRegistry (avoids : storage.IndexAvoidsDefault)
    (notDefault : key ≠ RegistryKey.defaultValue) :
    (storage.writeRegistry hash keyspace key value timestamp).IndexAvoidsDefault := by
  intro reverseKey
  rw [registryIndex_writeRegistry]
  split_ifs
  · exact fun named => notDefault (Option.some_injective _ named)
  · exact nofun
  · exact avoids reverseKey

theorem IndexAvoidsDefault.writeAll (avoids : storage.IndexAvoidsDefault)
    (writes : List RegistryWrite) (notDefault : ∀ write ∈ writes, write.key ≠ RegistryKey.defaultValue) :
    (storage.writeAll hash writes).IndexAvoidsDefault := by
  induction writes generalizing storage with
  | nil => exact avoids
  | cons write writes induction =>
      exact induction (avoids.writeRegistry (notDefault write List.mem_cons_self))
        fun write' member => notDefault write' (List.mem_cons_of_mem _ member)

theorem IndexAvoidsDefault.ne_of_lookup (avoids : storage.IndexAvoidsDefault)
    {value : keyspace.Value} (found : storage.registryIndexLookup hash keyspace value = some key) :
    key ≠ RegistryKey.defaultValue := by
  rintro rfl
  exact avoids _ found

end CompressionStorage

/-! ## The registrations of a block -/

namespace RegistrationsPerTable

/-- The registrations of one keyspace. -/
def entries (registrations : RegistrationsPerTable) :
    (keyspace : TimestampKeyspace) → List (RegistryKey × keyspace.Value)
  | .address => registrations.address
  | .assetId => registrations.assetId
  | .contractId => registrations.contractId
  | .scriptCode => registrations.scriptCode
  | .predicateCode => registrations.predicateCode

/-- The calls `write_to_registry` makes. -/
def writes (registrations : RegistrationsPerTable) (timestamp : Tai64) : List RegistryWrite :=
  writesOf .address registrations.address timestamp ++
    writesOf .assetId registrations.assetId timestamp ++
    writesOf .contractId registrations.contractId timestamp ++
    writesOf .scriptCode registrations.scriptCode timestamp ++
    writesOf .predicateCode registrations.predicateCode timestamp

variable {hash : Code → Bytes32} {storage : CompressionStorage}
  (registrations : RegistrationsPerTable) {keyspace : TimestampKeyspace} {key : RegistryKey}
  {timestamp : Tai64}

theorem writeToRegistry_eq :
    registrations.writeToRegistry hash storage timestamp =
      storage.writeAll hash (registrations.writes timestamp) :=
  rfl

@[simp] theorem entries_registrationsOf (intoIter : IterationOrder) (ctx : CompressCtx)
    (keyspace : TimestampKeyspace) :
    (registrationsOf intoIter ctx).entries keyspace = intoIter keyspace (ctx keyspace).changes := by
  cases keyspace <;> rfl

theorem mem_writesOf {entries : List (RegistryKey × keyspace.Value)} {write : RegistryWrite}
    (member : write ∈ writesOf keyspace entries timestamp) :
    write.keyspace = keyspace ∧ write.key ∈ entries.map Prod.fst := by
  obtain ⟨⟨key, value⟩, registered, rfl⟩ := List.mem_map.mp member
  exact ⟨rfl, List.mem_map_of_mem registered⟩

theorem mem_writes {write : RegistryWrite} :
    write ∈ registrations.writes timestamp ↔
      write ∈ writesOf write.keyspace (registrations.entries write.keyspace) timestamp := by
  obtain ⟨keyspace, key, value, timestamp'⟩ := write
  cases keyspace <;> simp [writes, entries, writesOf]

theorem reads_writeToRegistry_of_registered {value : keyspace.Value}
    (distinct : ((registrations.entries keyspace).map Prod.fst).Nodup)
    (registered : (key, value) ∈ registrations.entries keyspace) :
    (registrations.writeToRegistry hash storage timestamp).readRegistry keyspace key =
        .ok value ∧
      (registrations.writeToRegistry hash storage timestamp).readTimestamp keyspace key =
        .ok timestamp := by
  rw [writeToRegistry_eq]
  apply @CompressionStorage.reads_writeAll_of_only hash storage _ ⟨keyspace, key, value, timestamp⟩
  · exact registrations.mem_writes.mpr (List.mem_map_of_mem registered)
  · rintro ⟨keyspace', key', value', timestamp'⟩ member named
    cases named
    obtain ⟨⟨key'', value''⟩, registered', same⟩ :=
      List.mem_map.mp (registrations.mem_writes.mp member)
    cases same
    -- the keys of the keyspace are distinct, so the entry is the registered one
    cases List.inj_on_of_nodup_map distinct registered' registered rfl
    rfl

theorem reads_writeToRegistry_of_unregistered
    (unregistered : key ∉ (registrations.entries keyspace).map Prod.fst) :
    (registrations.writeToRegistry hash storage timestamp).readRegistry keyspace key =
        storage.readRegistry keyspace key ∧
      (registrations.writeToRegistry hash storage timestamp).readTimestamp keyspace key =
        storage.readTimestamp keyspace key := by
  rw [writeToRegistry_eq]
  apply CompressionStorage.reads_writeAll_of_unwritten
  rintro ⟨keyspace', key', value', timestamp'⟩ member named
  cases named
  exact unregistered (mem_writesOf (registrations.mem_writes.mp member)).2

theorem indexAvoidsDefault_writeToRegistry (avoids : storage.IndexAvoidsDefault)
    (notDefault : ∀ keyspace, ∀ entry ∈ registrations.entries keyspace,
      entry.1 ≠ RegistryKey.defaultValue) :
    (registrations.writeToRegistry hash storage timestamp).IndexAvoidsDefault := by
  apply avoids.writeAll
  intro write member
  obtain ⟨entry, registered, named⟩ :=
    List.mem_map.mp (mem_writesOf (registrations.mem_writes.mp member)).2
  exact named ▸ notDefault write.keyspace entry registered

end RegistrationsPerTable

/-! ## The cache evictor -/

section Evictor

variable {next : RegistryKey → RegistryKey}

theorem skipKeptKeys_spec {keepKeys : Finset RegistryKey} {fuel : ℕ} {key key' : RegistryKey}
    (stopped : skipKeptKeys next keepKeys fuel key = some key') :
    key' ∉ keepKeys ∧ (key' = key ∨ ∃ previous, key' = next previous) := by
  induction fuel generalizing key with
  | zero => cases stopped
  | succ fuel induction =>
      rw [skipKeptKeys] at stopped
      split_ifs at stopped with kept
      · obtain ⟨free, reached⟩ := induction stopped
        exact ⟨free, .inr (reached.elim (fun same => ⟨key, same⟩) id)⟩
      · cases stopped
        exact ⟨kept, .inl rfl⟩

theorem nextKey?_spec {evictor evictor' : CacheEvictor} {key : RegistryKey}
    (given : evictor.nextKey? next = some (key, evictor')) :
    key ∉ evictor.keepKeys ∧ evictor' = ⟨insert key evictor.keepKeys, key⟩ ∧
      (key = evictor.nextKey ∨ ∃ previous, key = next previous) := by
  obtain ⟨stoppedAt, stopped, given⟩ := Option.map_eq_some_iff.mp given
  cases given
  obtain ⟨free, reached⟩ := skipKeptKeys_spec stopped
  exact ⟨free, rfl, reached⟩

theorem newFromDb_nextKey_ne (nextAvoids : ∀ key, next key ≠ RegistryKey.defaultValue)
    (latestKey : Option RegistryKey) (keepKeys : Finset RegistryKey) :
    (CacheEvictor.newFromDb next latestKey keepKeys).nextKey ≠ RegistryKey.defaultValue := by
  cases latestKey with
  | none => exact RegistryKey.zero_ne_defaultValue
  | some latestKey => exact nextAvoids latestKey

end Evictor

/-! ## The two passes -/

namespace CompressCtxKeyspace

variable {keyspace : TimestampKeyspace} {ctx : CompressCtxKeyspace keyspace}
  {value : keyspace.Value} {key : RegistryKey}

theorem changesLookup_eq_some (found : ctx.changesLookup value = some key) :
    (key, value) ∈ ctx.changes := by
  obtain ⟨change, first, rfl⟩ := Option.map_eq_some_iff.mp found
  have same : change.2 = value := by simpa using List.find?_some first
  subst same
  exact List.mem_of_find?_eq_some first

theorem changesLookup_eq_none (missing : ctx.changesLookup value = none) :
    value ∉ ctx.changes.map Prod.snd := by
  intro member
  obtain ⟨change, changed, same⟩ := List.mem_map.mp member
  have unmatched := List.find?_eq_none.mp (Option.map_eq_none_iff.mp missing) change changed
  exact unmatched (decide_eq_true same)

/-- What the compress pass keeps of a keyspace's context, given the keys the prepare pass
pinned: its new keys are kept by the evictor, distinct, never pinned and never
`DEFAULT_VALUE`; its new values are distinct and never the default; and the evictor's next key
is not `DEFAULT_VALUE` either. -/
structure Fresh (pinned : Finset RegistryKey) (ctx : CompressCtxKeyspace keyspace) : Prop where
  nextKey : ctx.cacheEvictor.nextKey ≠ RegistryKey.defaultValue
  pinnedKept : pinned ⊆ ctx.cacheEvictor.keepKeys
  changesKept : ∀ change ∈ ctx.changes, change.1 ∈ ctx.cacheEvictor.keepKeys
  notPinned : ∀ change ∈ ctx.changes, change.1 ∉ pinned
  notDefault : ∀ change ∈ ctx.changes, change.1 ≠ RegistryKey.defaultValue
  notDefaultValue : ∀ change ∈ ctx.changes, change.2 ≠ keyspace.default
  distinctKeys : (ctx.changes.map Prod.fst).Nodup
  distinctValues : (ctx.changes.map Prod.snd).Nodup

theorem Fresh.register {next : RegistryKey → RegistryKey} {pinned : Finset RegistryKey}
    (fresh : ctx.Fresh pinned) (nextAvoids : ∀ key, next key ≠ RegistryKey.defaultValue)
    {cacheEvictor : CacheEvictor} (given : ctx.cacheEvictor.nextKey? next = some (key, cacheEvictor))
    (missing : ctx.changesLookup value = none) (nonDefault : value ≠ keyspace.default) :
    (⟨cacheEvictor, ctx.changes ++ [(key, value)]⟩ : CompressCtxKeyspace keyspace).Fresh pinned := by
  obtain ⟨free, rfl, reached⟩ := nextKey?_spec given
  have keyNotDefault : key ≠ RegistryKey.defaultValue := by
    rcases reached with rfl | ⟨previous, rfl⟩
    · exact fresh.nextKey
    · exact nextAvoids previous
  have newKey : key ∉ ctx.changes.map Prod.fst := fun member => by
    obtain ⟨change, changed, rfl⟩ := List.mem_map.mp member
    exact free (fresh.changesKept change changed)
  constructor
  · exact keyNotDefault
  · exact fresh.pinnedKept.trans (Finset.subset_insert _ _)
  · simp only [List.mem_append, List.mem_singleton]
    rintro change (changed | rfl)
    · exact Finset.mem_insert_of_mem (fresh.changesKept change changed)
    · exact Finset.mem_insert_self _ _
  · simp only [List.mem_append, List.mem_singleton]
    rintro change (changed | rfl)
    · exact fresh.notPinned change changed
    · exact fun pinnedKey => free (fresh.pinnedKept pinnedKey)
  · simp only [List.mem_append, List.mem_singleton]
    rintro change (changed | rfl)
    · exact fresh.notDefault change changed
    · exact keyNotDefault
  · simp only [List.mem_append, List.mem_singleton]
    rintro change (changed | rfl)
    · exact fresh.notDefaultValue change changed
    · exact nonDefault
  · rw [List.map_append, List.nodup_append_comm]
    exact List.nodup_cons.mpr ⟨newKey, fresh.distinctKeys⟩
  · rw [List.map_append, List.nodup_append_comm]
    exact List.nodup_cons.mpr ⟨changesLookup_eq_none missing, fresh.distinctValues⟩

end CompressCtxKeyspace

theorem fresh_intoCompressionContext {next : RegistryKey → RegistryKey}
    (nextAvoids : ∀ key, next key ≠ RegistryKey.defaultValue)
    (evictorCache : TimestampKeyspace → Option RegistryKey) (accessed : AccessedKeys)
    (keyspace : TimestampKeyspace) :
    (intoCompressionContext next evictorCache accessed keyspace).Fresh (accessed keyspace) where
  nextKey := newFromDb_nextKey_ne nextAvoids _ _
  pinnedKept := Finset.Subset.refl _
  changesKept := nofun
  notPinned := nofun
  notDefault := nofun
  notDefaultValue := nofun
  distinctKeys := List.nodup_nil
  distinctValues := List.nodup_nil

section Relations

variable (hash : Code → Bytes32) (config : Config) (timestamp : Tai64)
  (storage : CompressionStorage)

/-- The prepare pass has pinned the key the registry holds a value under, when that key's
timestamp is still accessible. -/
def Pins (accessed : AccessedKeys) (item : RegistryValue) : Prop :=
  item.value ≠ item.keyspace.default → ∀ key,
    accessibleKey hash config timestamp storage item.keyspace item.value = .ok (some key) →
    key ∈ accessed item.keyspace

/-- The three ways the compress pass gives a value its key: `DEFAULT_VALUE` for the default, a
key the block registers it under, or a pinned key the registry holds it under. -/
inductive Substitutes (accessed : AccessedKeys) (ctx : CompressCtx) :
    TimestampKeyspace × RegistryKey → RegistryValue → Prop
  | default (keyspace : TimestampKeyspace) :
      Substitutes accessed ctx (keyspace, RegistryKey.defaultValue) ⟨keyspace, keyspace.default⟩
  | registered {keyspace : TimestampKeyspace} {key : RegistryKey} {value : keyspace.Value}
      (registered : (key, value) ∈ (ctx keyspace).changes) :
      Substitutes accessed ctx (keyspace, key) ⟨keyspace, value⟩
  | held {keyspace : TimestampKeyspace} {key : RegistryKey} {value : keyspace.Value}
      (pinned : key ∈ accessed keyspace)
      (accessible : accessibleKey hash config timestamp storage keyspace value = .ok (some key)) :
      Substitutes accessed ctx (keyspace, key) ⟨keyspace, value⟩

end Relations

section Passes

variable {hash : Code → Bytes32} {config : Config} {timestamp : Tai64}
  {storage : CompressionStorage} {next : RegistryKey → RegistryKey}

theorem accessibleKey_eq_some {keyspace : TimestampKeyspace} {value : keyspace.Value}
    {key : RegistryKey} :
    accessibleKey hash config timestamp storage keyspace value = .ok (some key) ↔
      storage.registryIndexLookup hash keyspace value = some key ∧
        ∃ keyTimestamp, storage.readTimestamp keyspace key = .ok keyTimestamp ∧
          config.isTimestampAccessible timestamp keyTimestamp = .ok true := by
  unfold accessibleKey
  cases storage.registryIndexLookup hash keyspace value with
  | none => simp
  | some found =>
      simp only [Except.bind_eq_ok, Except.mapError_eq_ok]
      constructor
      · rintro ⟨keyTimestamp, stamped, accessible, checked, chosen⟩
        cases accessible with
        | false => simp [pure, Except.pure] at chosen
        | true =>
            have same : found = key := by simpa [pure, Except.pure] using chosen
            subst same
            exact ⟨rfl, keyTimestamp, stamped, checked⟩
      · rintro ⟨same, keyTimestamp, stamped, checked⟩
        cases same
        exact ⟨keyTimestamp, stamped, true, checked, rfl⟩

/-! ### The prepare pass -/

theorem prepareValue_cases {accessed accessed' : AccessedKeys} {item : RegistryValue}
    (prepared : prepareValue hash config timestamp storage accessed item = .ok accessed') :
    accessed' = accessed ∨ ∃ found,
      accessed' = Function.update accessed item.keyspace (insert found (accessed item.keyspace)) := by
  unfold prepareValue at prepared
  split_ifs at prepared with isDefault
  · cases prepared
    exact .inl rfl
  · split at prepared
    · cases prepared
      exact .inl rfl
    · split_ifs at prepared with pinned
      · cases prepared
        exact .inl rfl
      · obtain ⟨keyTimestamp, -, checked⟩ := Except.bind_eq_ok.mp prepared
        obtain ⟨accessible, -, chosen⟩ := Except.bind_eq_ok.mp checked
        cases accessible
        · cases chosen
          exact .inl rfl
        · cases chosen
          exact .inr ⟨_, rfl⟩

theorem prepareValue_mono {accessed accessed' : AccessedKeys} {item : RegistryValue}
    (prepared : prepareValue hash config timestamp storage accessed item = .ok accessed')
    (keyspace : TimestampKeyspace) : accessed keyspace ⊆ accessed' keyspace := by
  rcases prepareValue_cases prepared with rfl | ⟨found, rfl⟩
  · exact Finset.Subset.refl _
  · rw [Function.update_apply]
    split_ifs with same
    · subst same
      exact Finset.subset_insert _ _
    · exact Finset.Subset.refl _

theorem prepareValue_pins {accessed accessed' : AccessedKeys} {item : RegistryValue}
    (prepared : prepareValue hash config timestamp storage accessed item = .ok accessed') :
    Pins hash config timestamp storage accessed' item := by
  intro nonDefault key found
  obtain ⟨indexed, keyTimestamp, stamped, accessible⟩ := accessibleKey_eq_some.mp found
  unfold prepareValue at prepared
  rw [if_neg nonDefault] at prepared
  simp only [indexed] at prepared
  split_ifs at prepared with pinned
  · cases prepared
    exact pinned
  · simp only [stamped, accessible, Except.mapError, bind, Except.bind, if_true] at prepared
    cases prepared
    simp

/-- The prepare pass pins, for every value of the block, the key the registry holds it under
while still accessible; keys once pinned stay pinned. -/
theorem prepareValues_pins {block : List RegistryValue} {accessed accessed' : AccessedKeys}
    (prepared : block.foldlM (prepareValue hash config timestamp storage) accessed = .ok accessed') :
    (∀ keyspace, accessed keyspace ⊆ accessed' keyspace) ∧
      ∀ item ∈ block, Pins hash config timestamp storage accessed' item := by
  induction block generalizing accessed with
  | nil =>
      cases prepared
      exact ⟨fun _ => Finset.Subset.refl _, nofun⟩
  | cons item items induction =>
      rw [List.foldlM_cons] at prepared
      obtain ⟨middle, first, rest⟩ := Except.bind_eq_ok.mp prepared
      obtain ⟨grown, pins⟩ := induction rest
      refine ⟨fun keyspace => (prepareValue_mono first keyspace).trans (grown keyspace), ?_⟩
      rintro item' (_ | ⟨_, member⟩)
      · intro nonDefault key found
        exact grown _ (prepareValue_pins first nonDefault key found)
      · exact pins item' member

/-! ### The compress pass -/

theorem compressValue_cases {ctx ctx' : CompressCtx} {item : RegistryValue} {key : RegistryKey}
    (compressed : compressValue hash config timestamp storage next ctx item = .ok (key, ctx')) :
    (item.value = item.keyspace.default ∧ key = RegistryKey.defaultValue ∧ ctx' = ctx) ∨
      ((key, item.value) ∈ (ctx item.keyspace).changes ∧ ctx' = ctx) ∨
      (item.value ≠ item.keyspace.default ∧
        accessibleKey hash config timestamp storage item.keyspace item.value = .ok (some key) ∧
        ctx' = ctx) ∨
      (item.value ≠ item.keyspace.default ∧
        (ctx item.keyspace).changesLookup item.value = none ∧
        ∃ cacheEvictor, (ctx item.keyspace).cacheEvictor.nextKey? next = some (key, cacheEvictor) ∧
          ctx' = Function.update ctx item.keyspace
            ⟨cacheEvictor, (ctx item.keyspace).changes ++ [(key, item.value)]⟩) := by
  unfold compressValue at compressed
  split_ifs at compressed with isDefault
  · cases compressed
    exact .inl ⟨isDefault, rfl, rfl⟩
  · split at compressed
    · rename_i lookedUp
      cases compressed
      exact .inr (.inl ⟨CompressCtxKeyspace.changesLookup_eq_some lookedUp, rfl⟩)
    · rename_i missing
      obtain ⟨held, accessible, chosen⟩ := Except.bind_eq_ok.mp compressed
      split at chosen
      · cases chosen
        exact .inr (.inr (.inl ⟨isDefault, accessible, rfl⟩))
      · split at chosen
        · cases chosen
        · rename_i cacheEvictor given
          cases chosen
          exact .inr (.inr (.inr ⟨isDefault, missing, cacheEvictor, given, rfl⟩))

theorem Substitutes.mono {accessed : AccessedKeys} {ctx ctx' : CompressCtx}
    (grown : ∀ keyspace, (ctx keyspace).changes <+: (ctx' keyspace).changes)
    {pair : TimestampKeyspace × RegistryKey} {item : RegistryValue} :
    Substitutes hash config timestamp storage accessed ctx pair item →
      Substitutes hash config timestamp storage accessed ctx' pair item
  | .default keyspace => .default keyspace
  | .registered member => .registered ((grown _).subset member)
  | .held pinned found => .held pinned found

theorem compressValue_spec (nextAvoids : ∀ key, next key ≠ RegistryKey.defaultValue)
    {accessed : AccessedKeys} {ctx ctx' : CompressCtx} {item : RegistryValue} {key : RegistryKey}
    (fresh : ∀ keyspace, (ctx keyspace).Fresh (accessed keyspace))
    (pins : Pins hash config timestamp storage accessed item)
    (compressed : compressValue hash config timestamp storage next ctx item = .ok (key, ctx')) :
    (∀ keyspace, (ctx' keyspace).Fresh (accessed keyspace)) ∧
      (∀ keyspace, (ctx keyspace).changes <+: (ctx' keyspace).changes) ∧
      Substitutes hash config timestamp storage accessed ctx' (item.keyspace, key) item := by
  obtain ⟨keyspace, value⟩ := item
  rcases compressValue_cases compressed with
    ⟨isDefault, rfl, rfl⟩ | ⟨registered, rfl⟩ | ⟨nonDefault, accessible, rfl⟩ |
      ⟨nonDefault, missing, cacheEvictor, given, rfl⟩
  · dsimp only at isDefault
    subst isDefault
    exact ⟨fresh, fun _ => List.prefix_rfl, .default keyspace⟩
  · exact ⟨fresh, fun _ => List.prefix_rfl, .registered registered⟩
  · exact ⟨fresh, fun _ => List.prefix_rfl, .held (pins nonDefault key accessible) accessible⟩
  · -- a new key: only this keyspace's context changes
    have registers := (fresh keyspace).register nextAvoids given missing nonDefault
    refine ⟨fun keyspace' => ?_, fun keyspace' => ?_, .registered ?_⟩
    · by_cases same : keyspace' = keyspace
      · subst same
        rw [Function.update_self]
        exact registers
      · rw [Function.update_of_ne same]
        exact fresh keyspace'
    · by_cases same : keyspace' = keyspace
      · subst same
        rw [Function.update_self]
        exact List.prefix_append _ _
      · rw [Function.update_of_ne same]
    · rw [Function.update_self]
      exact List.mem_append_right _ (List.mem_singleton_self _)

/-- The compress pass over the block, by induction on the values: the context stays fresh and
grows, and every key substitutes its value in the final context. -/
theorem compressValues_spec (nextAvoids : ∀ key, next key ≠ RegistryKey.defaultValue)
    {accessed : AccessedKeys} {items : List RegistryValue} {ctx ctx' : CompressCtx}
    {keys : List (TimestampKeyspace × RegistryKey)}
    (pins : ∀ item ∈ items, Pins hash config timestamp storage accessed item)
    (fresh : ∀ keyspace, (ctx keyspace).Fresh (accessed keyspace))
    (compressed : compressValues hash config timestamp storage next items ctx = .ok (keys, ctx')) :
    (∀ keyspace, (ctx' keyspace).Fresh (accessed keyspace)) ∧
      (∀ keyspace, (ctx keyspace).changes <+: (ctx' keyspace).changes) ∧
      List.Forall₂ (Substitutes hash config timestamp storage accessed ctx') keys items := by
  induction items generalizing ctx keys with
  | nil =>
      cases compressed
      exact ⟨fresh, fun _ => List.prefix_rfl, .nil⟩
  | cons item items induction =>
      obtain ⟨⟨key, middle⟩, first, rest⟩ := Except.bind_eq_ok.mp compressed
      obtain ⟨⟨keys', final⟩, second, done⟩ := Except.bind_eq_ok.mp rest
      cases done
      obtain ⟨middleFresh, grown, substitutes⟩ :=
        compressValue_spec nextAvoids fresh (pins item List.mem_cons_self) first
      obtain ⟨finalFresh, grown', rest⟩ :=
        induction (fun item' member => pins item' (List.mem_cons_of_mem _ member)) middleFresh second
      exact ⟨finalFresh, fun keyspace => (grown keyspace).trans (grown' keyspace),
        .cons (substitutes.mono grown') rest⟩

/-! ### Decompression -/

theorem decompressValue_defaultValue (keyspace : TimestampKeyspace) :
    decompressValue config timestamp storage keyspace RegistryKey.defaultValue =
      .ok keyspace.default :=
  if_pos rfl

theorem decompressValue_of_reads {keyspace : TimestampKeyspace} {key : RegistryKey}
    {value : keyspace.Value} {keyTimestamp : Tai64} (notDefault : key ≠ RegistryKey.defaultValue)
    (stamped : storage.readTimestamp keyspace key = .ok keyTimestamp)
    (accessible : config.isTimestampAccessible timestamp keyTimestamp = .ok true)
    (held : storage.readRegistry keyspace key = .ok value) :
    decompressValue config timestamp storage keyspace key = .ok value := by
  simp only [decompressValue, if_neg notDefault, stamped, accessible, held, Except.mapError, bind,
    Except.bind]
  rfl

section RoundTrip

variable {intoIter : IterationOrder}

theorem mem_entries_registrationsOf (ordered : ∀ keyspace changes, (intoIter keyspace changes).Perm changes)
    {ctx : CompressCtx} {keyspace : TimestampKeyspace} {change : RegistryKey × keyspace.Value} :
    change ∈ (registrationsOf intoIter ctx).entries keyspace ↔ change ∈ (ctx keyspace).changes := by
  rw [RegistrationsPerTable.entries_registrationsOf]
  exact (ordered _ _).mem_iff

/-- Once the registrations are written, every key the compress pass gave reads back its value. -/
theorem decompressValue_of_substitutes (hashInjective : Function.Injective hash)
    (ordered : ∀ keyspace changes, (intoIter keyspace changes).Perm changes)
    (consistent : storage.Consistent hash) (avoids : storage.IndexAvoidsDefault)
    {accessed : AccessedKeys} {ctx : CompressCtx}
    (fresh : ∀ keyspace, (ctx keyspace).Fresh (accessed keyspace))
    {keyspace : TimestampKeyspace} {key : RegistryKey} {value : keyspace.Value}
    (substitutes : Substitutes hash config timestamp storage accessed ctx (keyspace, key) ⟨keyspace, value⟩) :
    decompressValue config timestamp
      ((registrationsOf intoIter ctx).writeToRegistry hash storage timestamp) keyspace key =
        .ok value := by
  cases substitutes with
  | default => exact decompressValue_defaultValue keyspace
  | registered registered =>
      -- a new key: the registrations write it once, at the block's own time
      have distinct : (((registrationsOf intoIter ctx).entries keyspace).map Prod.fst).Nodup := by
        rw [RegistrationsPerTable.entries_registrationsOf]
        exact ((ordered _ _).map Prod.fst).nodup_iff.mpr (fresh keyspace).distinctKeys
      obtain ⟨held, stamped⟩ := RegistrationsPerTable.reads_writeToRegistry_of_registered _
        distinct ((mem_entries_registrationsOf ordered).mpr registered)
      exact decompressValue_of_reads ((fresh keyspace).notDefault _ registered) stamped
        (config.isTimestampAccessible_self timestamp) held
  | held pinned accessible =>
      -- a pinned key: no registration names it, so it reads what the registry held
      obtain ⟨indexed, keyTimestamp, stamped, accessibleAt⟩ := accessibleKey_eq_some.mp accessible
      obtain ⟨value', read, same, -⟩ := consistent.readRegistry_of_lookup indexed
      have unregistered : key ∉ ((registrationsOf intoIter ctx).entries keyspace).map Prod.fst := by
        intro member
        obtain ⟨change, changed, rfl⟩ := List.mem_map.mp member
        exact (fresh keyspace).notPinned change ((mem_entries_registrationsOf ordered).mp changed) pinned
      obtain ⟨held, stampedAfter⟩ := RegistrationsPerTable.reads_writeToRegistry_of_unregistered _ unregistered
      rw [TimestampKeyspace.eq_of_identifies hashInjective same] at read
      exact decompressValue_of_reads (avoids.ne_of_lookup indexed) (stampedAfter.trans stamped)
        accessibleAt (held.trans read)

/-- What a successful `compress` did: its prepare pass, its compress pass from the evictors of
the database, and the registrations it wrote. -/
theorem compress_eq_ok {db db' : CompressDb} {block : List RegistryValue}
    {compressed : CompressedBlock}
    (done : compress hash config timestamp next intoIter db block = .ok (compressed, db')) :
    ∃ accessed ctx,
      block.foldlM (prepareValue hash config timestamp db.storage) (fun _ => ∅) = .ok accessed ∧
      compressValues hash config timestamp db.storage next block
          (intoCompressionContext next db.evictorCache accessed) = .ok (compressed.keys, ctx) ∧
      compressed.registrations = registrationsOf intoIter ctx ∧
      db'.storage = (registrationsOf intoIter ctx).writeToRegistry hash db.storage timestamp := by
  obtain ⟨accessed, prepared, rest⟩ := Except.bind_eq_ok.mp done
  obtain ⟨⟨keys, ctx⟩, compressedValues, finalized⟩ := Except.bind_eq_ok.mp rest
  cases finalized
  exact ⟨accessed, ctx, prepared, compressedValues, rfl, rfl⟩

theorem compress_substitutes (nextAvoids : ∀ key, next key ≠ RegistryKey.defaultValue)
    {db db' : CompressDb} {block : List RegistryValue} {compressed : CompressedBlock}
    (done : compress hash config timestamp next intoIter db block = .ok (compressed, db')) :
    ∃ accessed ctx, (∀ keyspace, (ctx keyspace).Fresh (accessed keyspace)) ∧
      List.Forall₂ (Substitutes hash config timestamp db.storage accessed ctx) compressed.keys block ∧
      compressed.registrations = registrationsOf intoIter ctx ∧
      db'.storage = (registrationsOf intoIter ctx).writeToRegistry hash db.storage timestamp := by
  obtain ⟨accessed, ctx, prepared, compressedValues, registrations, stored⟩ := compress_eq_ok done
  obtain ⟨-, pins⟩ := prepareValues_pins prepared
  obtain ⟨fresh, -, substitutes⟩ := compressValues_spec nextAvoids pins
    (fresh_intoCompressionContext nextAvoids db.evictorCache accessed) compressedValues
  exact ⟨accessed, ctx, fresh, substitutes, registrations, stored⟩

theorem Substitutes.keyspace_eq {accessed : AccessedKeys} {ctx : CompressCtx}
    {pair : TimestampKeyspace × RegistryKey} {item : RegistryValue}
    (substitutes : Substitutes hash config timestamp storage accessed ctx pair item) :
    pair.1 = item.keyspace := by
  cases substitutes <;> rfl

/-- A block compressed from a consistent registry decompresses, from the same registry, to
itself, and the decompressor ends with the compressor's registry. -/
theorem decompress_compress (hashInjective : Function.Injective hash)
    (nextAvoids : ∀ key, next key ≠ RegistryKey.defaultValue)
    (ordered : ∀ keyspace changes, (intoIter keyspace changes).Perm changes)
    {db db' : CompressDb} {block : List RegistryValue} {compressed : CompressedBlock}
    (consistent : db.storage.Consistent hash) (avoids : db.storage.IndexAvoidsDefault)
    (done : compress hash config timestamp next intoIter db block = .ok (compressed, db')) :
    decompress hash config timestamp db.storage compressed = .ok (block, db'.storage) := by
  obtain ⟨accessed, ctx, fresh, substitutes, registrations, stored⟩ :=
    compress_substitutes nextAvoids done
  unfold decompress
  rw [registrations, stored]
  refine Except.bind_eq_ok.mpr ⟨block, List.mapM_except_of_forall₂ (substitutes.imp ?_), rfl⟩
  rintro ⟨keyspace, key⟩ ⟨keyspace', value⟩ substitutes
  have same : keyspace = keyspace' := substitutes.keyspace_eq
  subst same
  dsimp only
  rw [decompressValue_of_substitutes hashInjective ordered consistent avoids fresh substitutes]
  rfl

theorem compress_keeps (nextAvoids : ∀ key, next key ≠ RegistryKey.defaultValue)
    (ordered : ∀ keyspace changes, (intoIter keyspace changes).Perm changes)
    {db db' : CompressDb} {block : List RegistryValue} {compressed : CompressedBlock}
    (consistent : db.storage.Consistent hash) (avoids : db.storage.IndexAvoidsDefault)
    (done : compress hash config timestamp next intoIter db block = .ok (compressed, db')) :
    db'.storage.Consistent hash ∧ db'.storage.IndexAvoidsDefault := by
  obtain ⟨accessed, ctx, fresh, -, -, stored⟩ := compress_substitutes nextAvoids done
  rw [stored]
  refine ⟨RegistrationsPerTable.writeToRegistry_consistent _ _ consistent,
    RegistrationsPerTable.indexAvoidsDefault_writeToRegistry _ avoids fun keyspace entry registered => ?_⟩
  exact (fresh keyspace).notDefault entry ((mem_entries_registrationsOf ordered).mp registered)

/-- The registrations of a compressed block hold, in each keyspace, distinct keys and distinct
values: no key is `DEFAULT_VALUE` and no value is the default. Each new value of the block is
registered once, whatever order the tables are iterated in. -/
theorem compressed_block_registers_each_value_once
    (nextAvoids : ∀ key, next key ≠ RegistryKey.defaultValue)
    (ordered : ∀ keyspace changes, (intoIter keyspace changes).Perm changes)
    {db db' : CompressDb} {block : List RegistryValue} {compressed : CompressedBlock}
    (done : compress hash config timestamp next intoIter db block = .ok (compressed, db'))
    (keyspace : TimestampKeyspace) :
    ((compressed.registrations.entries keyspace).map Prod.fst).Nodup ∧
      ((compressed.registrations.entries keyspace).map Prod.snd).Nodup ∧
      ∀ entry ∈ compressed.registrations.entries keyspace,
        entry.1 ≠ RegistryKey.defaultValue ∧ entry.2 ≠ keyspace.default := by
  obtain ⟨accessed, ctx, fresh, -, registrations, -⟩ := compress_substitutes nextAvoids done
  have permuted := ordered keyspace (ctx keyspace).changes
  rw [registrations, RegistrationsPerTable.entries_registrationsOf]
  refine ⟨(permuted.map Prod.fst).nodup_iff.mpr (fresh keyspace).distinctKeys,
    (permuted.map Prod.snd).nodup_iff.mpr (fresh keyspace).distinctValues, fun entry registered => ?_⟩
  have changed := permuted.mem_iff.mp registered
  exact ⟨(fresh keyspace).notDefault entry changed, (fresh keyspace).notDefaultValue entry changed⟩

/-- A `RegistryKey::next` that wraps from `MAX_WRITABLE`, one below `DEFAULT_VALUE`, to zero. -/
def wrappingNext (key : RegistryKey) : RegistryKey :=
  ⟨(key.val + 1) % (2 ^ 24 - 1), by omega⟩

theorem wrappingNext_ne_defaultValue (key : RegistryKey) :
    wrappingNext key ≠ RegistryKey.defaultValue := by
  intro same
  have values := congrArg Fin.val same
  simp only [wrappingNext, RegistryKey.defaultValue] at values
  omega

/-- A hash of code without collisions. -/
def codeHash (code : Code) : Bytes32 :=
  Encodable.encode (code.map UInt8.toNat)

theorem codeHash_injective : Function.Injective codeHash :=
  Encodable.encode_injective.comp (List.map_injective_iff.mpr fun _ _ same => UInt8.toNat_inj.mp same)

theorem CompressionStorage.indexAvoidsDefault_empty : CompressionStorage.empty.IndexAvoidsDefault :=
  fun _ found => by cases found

/-- Address 5 twice, the zero address and asset 7. -/
def reusedAddressBlock : List RegistryValue :=
  [⟨.address, (5 : Address)⟩, ⟨.address, (0 : Address)⟩, ⟨.address, (5 : Address)⟩,
    ⟨.assetId, (7 : AssetId)⟩]

theorem reused_address_block_registers_each_value_once :
    ∃ compressed db', compress codeHash ⟨100⟩ 10 wrappingNext (fun _ changes => changes)
        ⟨.empty, fun _ => none⟩ reusedAddressBlock = .ok (compressed, db') ∧
      ∀ keyspace, ((compressed.registrations.entries keyspace).map Prod.fst).Nodup ∧
        ((compressed.registrations.entries keyspace).map Prod.snd).Nodup ∧
        ∀ entry ∈ compressed.registrations.entries keyspace,
          entry.1 ≠ RegistryKey.defaultValue ∧ entry.2 ≠ keyspace.default := by
  obtain ⟨compressed, db', done⟩ : ∃ compressed db',
      compress codeHash ⟨100⟩ 10 wrappingNext (fun _ changes => changes)
        ⟨.empty, fun _ => none⟩ reusedAddressBlock = .ok (compressed, db') :=
    ⟨_, _, rfl⟩
  exact ⟨compressed, db', done, compressed_block_registers_each_value_once
    wrappingNext_ne_defaultValue (fun _ _ => List.Perm.refl _) done⟩


end RoundTrip

end Passes

section Sequence

variable {hash : Code → Bytes32} {config : Config} {next : RegistryKey → RegistryKey}
  {intoIter : IterationOrder}

/-- Blocks compressed one after the other from a consistent registry decompress, one after the
other from the same registry, to the blocks themselves, and the decompressor's registry stays
the compressor's. By induction on the blocks, with the registry's consistency as invariant. -/
theorem compressed_blocks_decompress_to_blocks (hashInjective : Function.Injective hash)
    (nextAvoids : ∀ key, next key ≠ RegistryKey.defaultValue)
    (ordered : ∀ keyspace changes, (intoIter keyspace changes).Perm changes)
    {db db' : CompressDb} {blocks : List (Tai64 × List RegistryValue)}
    {compressedBlocks : List (Tai64 × CompressedBlock)}
    (consistent : db.storage.Consistent hash) (avoids : db.storage.IndexAvoidsDefault)
    (compressed : compressBlocks hash config next intoIter db blocks = .ok (compressedBlocks, db')) :
    decompressBlocks hash config db.storage compressedBlocks =
      .ok (blocks.map Prod.snd, db'.storage) := by
  induction blocks generalizing db compressedBlocks with
  | nil =>
      cases compressed
      rfl
  | cons entry blocks induction =>
      obtain ⟨timestamp, block⟩ := entry
      obtain ⟨⟨compressedBlock, middle⟩, first, rest⟩ := Except.bind_eq_ok.mp compressed
      obtain ⟨⟨compressedRest, final⟩, second, done⟩ := Except.bind_eq_ok.mp rest
      cases done
      obtain ⟨consistent', avoids'⟩ := compress_keeps nextAvoids ordered consistent avoids first
      refine Except.bind_eq_ok.mpr ⟨(block, middle.storage),
        decompress_compress hashInjective nextAvoids ordered consistent avoids first, ?_⟩
      exact Except.bind_eq_ok.mpr ⟨(blocks.map Prod.snd, _),
        induction consistent' avoids' second, rfl⟩

/-- The block above, then address 5 again, still accessible, beside a new address 6. -/
def reusedAddressBlocks : List (Tai64 × List RegistryValue) :=
  [(10, reusedAddressBlock), (20, [⟨.address, (5 : Address)⟩, ⟨.address, (6 : Address)⟩])]

theorem reused_address_blocks_decompress_to_blocks :
    ∃ compressedBlocks db', compressBlocks codeHash ⟨100⟩ wrappingNext (fun _ changes => changes)
        ⟨.empty, fun _ => none⟩ reusedAddressBlocks = .ok (compressedBlocks, db') ∧
      decompressBlocks codeHash ⟨100⟩ .empty compressedBlocks =
        .ok (reusedAddressBlocks.map Prod.snd, db'.storage) := by
  obtain ⟨compressedBlocks, db', compressed⟩ : ∃ compressedBlocks db',
      compressBlocks codeHash ⟨100⟩ wrappingNext (fun _ changes => changes)
        ⟨.empty, fun _ => none⟩ reusedAddressBlocks = .ok (compressedBlocks, db') :=
    ⟨_, _, rfl⟩
  exact ⟨compressedBlocks, db', compressed,
    compressed_blocks_decompress_to_blocks codeHash_injective wrappingNext_ne_defaultValue
      (fun _ _ => List.Perm.refl _) CompressionStorage.consistent_empty
      CompressionStorage.indexAvoidsDefault_empty compressed⟩

end Sequence

end FuelCore.Compression
