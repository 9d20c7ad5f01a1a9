import FuelCore.BlockAggregator.Storage
import FuelCore.Lib.Except

/-! # What the block aggregator's storage does

Both `store_block`s take a block exactly at the height after the latest one, when that height
exists, and at any height otherwise; what they write is read back at that height only, since
the keys of the bucket tell heights apart. A local range query over heights the table holds
streams all of them in order; a remote one answers every height of the range.
-/

namespace FuelCore.BlockAggregator

variable {Block : Type}

/-! ## Keys -/

theorem digitChar_injOn {m n : ℕ} (mSmall : m < 16) (nSmall : n < 16)
    (same : Nat.digitChar m = Nat.digitChar n) : m = n := by
  have injective : ∀ m n : Fin 16, Nat.digitChar m = Nat.digitChar n → m = n := by decide
  exact Fin.mk.inj (injective ⟨m, mSmall⟩ ⟨n, nSmall⟩ same)

theorem hexByte_injective : Function.Injective hexByte := by
  intro a b same
  simp only [hexByte, List.cons.injEq, and_true] at same
  have high := digitChar_injOn (Nat.div_lt_of_lt_mul a.toNat_lt) (Nat.div_lt_of_lt_mul b.toNat_lt)
    same.1
  have low := digitChar_injOn (Nat.mod_lt _ (by decide)) (Nat.mod_lt _ (by decide)) same.2
  apply UInt8.toNat_inj.mp
  omega

theorem toBytes_injective : Function.Injective toBytes := by
  intro a b same
  simp only [toBytes, List.cons.injEq, and_true] at same
  obtain ⟨byte0, byte1, byte2, byte3⟩ := same
  replace byte0 := congrArg UInt8.toNat byte0
  replace byte1 := congrArg UInt8.toNat byte1
  replace byte2 := congrArg UInt8.toNat byte2
  replace byte3 := congrArg UInt8.toNat byte3
  simp only [UInt32.toNat_toUInt8, UInt32.toNat_shiftRight, Nat.shiftRight_eq_div_pow,
    UInt32.reduceToNat, Nat.reduceMod, Nat.reducePow] at byte0 byte1 byte2 byte3
  apply UInt32.toNat_inj.mp
  have := a.toNat_lt
  have := b.toNat_lt
  omega

/-- Two heights have the same key only if they are the same height: the bucket keeps one object
per height. -/
theorem blockHeightToKey_injective : Function.Injective blockHeightToKey := by
  intro a b same
  have chars := String.ofList_injective same
  simp only [toBytes, List.map_cons, List.map_nil, hexByte, List.intercalate, List.intersperse,
    List.flatten, List.append_eq, List.cons_append, List.nil_append, List.cons.injEq, and_true,
    true_and] at chars
  obtain ⟨high0, low0, high1, low1, high2, low2, high3, low3⟩ := chars
  apply toBytes_injective
  simp only [toBytes, List.cons.injEq, and_true]
  exact ⟨hexByte_injective (by rw [hexByte, hexByte, high0, low0]),
    hexByte_injective (by rw [hexByte, hexByte, high1, low1]),
    hexByte_injective (by rw [hexByte, hexByte, high2, low2]),
    hexByte_injective (by rw [hexByte, hexByte, high3, low3])⟩

/-! ## Storing -/

/-- The heights a `store_block` takes after `currentHeight`: the successor of the latest height,
where there is one, and any height otherwise. -/
def Admits (currentHeight : Option UInt32) (height : UInt32) : Prop :=
  ∀ nextHeight ∈ currentHeight.bind (·.checkedAdd 1), height = nextHeight

theorem admits_iff_check {currentHeight : Option UInt32} {height : UInt32} :
    Admits currentHeight height ↔
      ∀ current ∈ currentHeight, ∀ next ∈ current.checkedAdd 1, height = next := by
  cases currentHeight <;> simp [Admits]

namespace StorageDB

theorem storeBlock_eq_ok_iff {db db' : StorageDB Block} {height : UInt32} {block : Block} :
    db.storeBlock height block = .ok db' ↔
      Admits db.getCurrentHeight height ∧ db' = db.write height block := by
  rw [admits_iff_check]
  unfold storeBlock
  cases db.getCurrentHeight with
  | none => simp [eq_comm]
  | some current =>
      cases added : current.checkedAdd 1 with
      | none => simp [added, eq_comm]
      | some next => by_cases same : height = next <;> simp [added, same, eq_comm]

theorem storeBlock_eq_error_iff {db : StorageDB Block} {height : UInt32} {block : Block}
    {error : DbError} :
    db.storeBlock height block = .error error ↔
      ∃ next ∈ db.getCurrentHeight.bind (·.checkedAdd 1), height ≠ next ∧
        error = .cannotStoreBlock height next := by
  unfold storeBlock
  cases db.getCurrentHeight with
  | none => simp
  | some current =>
      cases added : current.checkedAdd 1 with
      | none => simp [added]
      | some next => by_cases same : height = next <;> simp [added, same, eq_comm]

end StorageDB

namespace Remote

theorem storeBlock_eq_ok_iff {remote remote' : Remote Block} {height : UInt32} {block : Block} :
    remote.storeBlock height block = .ok remote' ↔
      Admits remote.getCurrentHeight height ∧ remote' = remote.write height block := by
  rw [admits_iff_check]
  unfold storeBlock
  cases remote.getCurrentHeight with
  | none => simp [eq_comm]
  | some current =>
      cases added : current.checkedAdd 1 with
      | none => simp [added, eq_comm]
      | some next =>
          by_cases same : height = next
          · simp [added, same, eq_comm]
          · simp [added, same, Ne.symm same]

theorem storeBlock_eq_error_iff {remote : Remote Block} {height : UInt32} {block : Block}
    {error : DbError} :
    remote.storeBlock height block = .error error ↔
      ∃ current ∈ remote.getCurrentHeight, ∃ next ∈ current.checkedAdd 1, height ≠ next ∧
        error = .cannotStoreBlockRemote height current next := by
  unfold storeBlock
  cases remote.getCurrentHeight with
  | none => simp
  | some current =>
      cases added : current.checkedAdd 1 with
      | none => simp [added]
      | some next =>
          by_cases same : height = next
          · simp [added, same]
          · simp [added, same, Ne.symm same, eq_comm]

end Remote

namespace StorageOrRemoteDB

/-- The writes of `store_block`, on either storage. -/
def write : StorageOrRemoteDB Block → UInt32 → Block → StorageOrRemoteDB Block
  | .remote cache, height, block => .remote (cache.write height block)
  | .storage db, height, block => .storage (db.write height block)

theorem storeBlock_eq_ok_iff {storage storage' : StorageOrRemoteDB Block} {height : UInt32}
    {block : Block} :
    storage.storeBlock height block = .ok storage' ↔
      Admits storage.getCurrentHeight height ∧ storage' = storage.write height block := by
  cases storage with
  | remote cache =>
      simp only [storeBlock, Except.map_eq_ok, Remote.storeBlock_eq_ok_iff, getCurrentHeight, write]
      constructor
      · rintro ⟨_, ⟨admits, rfl⟩, rfl⟩
        exact ⟨admits, rfl⟩
      · rintro ⟨admits, rfl⟩
        exact ⟨_, ⟨admits, rfl⟩, rfl⟩
  | storage db =>
      simp only [storeBlock, Except.map_eq_ok, StorageDB.storeBlock_eq_ok_iff, getCurrentHeight,
        write]
      constructor
      · rintro ⟨_, ⟨admits, rfl⟩, rfl⟩
        exact ⟨admits, rfl⟩
      · rintro ⟨admits, rfl⟩
        exact ⟨_, ⟨admits, rfl⟩, rfl⟩

@[simp] theorem getCurrentHeight_write (storage : StorageOrRemoteDB Block) (height : UInt32)
    (block : Block) : (storage.write height block).getCurrentHeight = some height := by
  cases storage <;> rfl

@[simp] theorem keepsBlocks_write (storage : StorageOrRemoteDB Block) (height : UInt32)
    (block : Block) : (storage.write height block).KeepsBlocks ↔ storage.KeepsBlocks := by
  cases storage <;> rfl

theorem block?_write_self {storage : StorageOrRemoteDB Block} (keeps : storage.KeepsBlocks)
    (height : UInt32) (block : Block) : (storage.write height block).block? height = some block := by
  cases storage with
  | remote cache =>
      simp only [KeepsBlocks] at keeps
      simp [write, block?, Remote.write, keeps]
  | storage db => simp [write, block?, StorageDB.write]

theorem eq_of_block?_write_self {storage : StorageOrRemoteDB Block} {height : UInt32}
    {block stored : Block} (written : (storage.write height block).block? height = some stored) :
    stored = block := by
  cases storage with
  | remote cache =>
      by_cases publishes : cache.publishesBlocks
      · simpa [write, block?, Remote.write, publishes, eq_comm] using written
      · simp [write, block?, Remote.write, publishes] at written
  | storage db => simpa [write, block?, StorageDB.write, eq_comm] using written

/-- A write at one height leaves every other height as it was, in the bucket too, since other
heights have other keys. -/
theorem block?_write_of_ne (storage : StorageOrRemoteDB Block) {height other : UInt32}
    (different : other ≠ height) (block : Block) :
    (storage.write height block).block? other = storage.block? other := by
  cases storage with
  | remote cache =>
      have otherKey : blockHeightToKey other ≠ blockHeightToKey height :=
        blockHeightToKey_injective.ne different
      by_cases publishes : cache.publishesBlocks <;>
        simp [write, block?, Remote.write, publishes, Function.update_of_ne otherKey]
  | storage db => simp [write, block?, StorageDB.write, Function.update_of_ne different]

end StorageOrRemoteDB

/-! ## Range queries -/

namespace StorageStream

@[simp] theorem collect_of_ended (blocks : UInt32 → Option Block) (fuel : ℕ) (last : UInt32) :
    collect blocks fuel ⟨none, last⟩ = [] := by
  cases fuel <;> rfl

theorem collect_of_held (blocks : UInt32 → Option Block) {last : UInt32} :
    ∀ (count : ℕ) {height : UInt32} {fuel : ℕ}, last.toNat - height.toNat = count →
      height ≤ last → count < fuel →
      (∀ other, height ≤ other → other ≤ last → (blocks other).isSome) →
      collect blocks fuel ⟨some height, last⟩ =
        (RangeInclusive.mk height last).toList.filterMap fun other =>
          (blocks other).map (other, ·)
  | count, height, fuel + 1, distance, ordered, enough, held => by
      obtain ⟨block, found⟩ := Option.isSome_iff_exists.mp
        (held height (UInt32.le_iff_toNat_le.mpr le_rfl) ordered)
      by_cases below : height < last
      · -- the stream moves on to the next height, which the range starts with
        have next : (height + 1).toNat = height.toNat + 1 := by
          rw [UInt32.lt_iff_toNat_lt] at below
          rw [UInt32.toNat_add, UInt32.toNat_one,
            Nat.mod_eq_of_lt (by have := last.toNat_lt; omega)]
        have rest := @collect_of_held blocks last (count - 1) (height + 1) fuel
          (by rw [UInt32.lt_iff_toNat_lt] at below; omega)
          (by rw [UInt32.le_iff_toNat_le, next]; rw [UInt32.lt_iff_toNat_lt] at below; omega)
          (by rw [UInt32.lt_iff_toNat_lt] at below; omega)
          (fun other above below' => held other
            (by rw [UInt32.le_iff_toNat_le] at above ⊢; omega) below')
        rw [RangeInclusive.toList_of_lt below, List.filterMap_cons, found, Option.map_some,
          ← rest]
        simp [collect, pollNext, found, below]
      · have same : height = last := by
          rw [UInt32.lt_iff_toNat_lt] at below
          rw [UInt32.le_iff_toNat_le] at ordered
          exact UInt32.toNat_inj.mp (by omega)
        subst same
        simp [collect, pollNext, found, RangeInclusive.toList_self]
  | _, _, 0, _, _, enough, _ => absurd enough (Nat.not_lt_zero _)

end StorageStream

namespace StorageOrRemoteDB

theorem getBlockRange_storage_of_held (db : StorageDB Block) {first last : UInt32}
    (ordered : first ≤ last) (held : ∀ height, first ≤ height → height ≤ last → (db.blocks height).isSome) :
    (storage db).getBlockRange first last =
      .ok (.bytes ((RangeInclusive.mk first last).toList.filterMap fun height =>
        (db.blocks height).map (height, ·))) := by
  simp only [getBlockRange, StorageStream.new]
  rw [StorageStream.collect_of_held db.blocks _ rfl ordered (Nat.lt_succ_self _) held]

end StorageOrRemoteDB

end FuelCore.BlockAggregator
