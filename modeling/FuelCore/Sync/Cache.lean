import FuelCore.Lib.Range

/-! # The sync cache's chunks

`services/sync/src/import/cache.rs`. The cache maps heights to a fetched header or a fetched
block; `get_chunks` cuts a requested range into chunks of at most `max_chunk_size` heights,
each a batch of cached headers, a batch of cached blocks, or a range to fetch.

The map is a `BTreeMap`, here the list of its entries in key order. The batches the cache
builds all come from no peer, so their `peer` is left out. -/

namespace FuelCore.Sync

/-- `Range<u32>`, `start..end`; its end is `stop` here. -/
structure HeightRange where
  start : UInt32
  stop : UInt32
  deriving DecidableEq, Repr

namespace HeightRange

def isEmpty (range : HeightRange) : Bool :=
  !decide (range.start < range.stop)

/-- `len`, the number of heights of the range. -/
def len (range : HeightRange) : ℕ :=
  range.stop.toNat - range.start.toNat

end HeightRange

structure NonZeroU32 where
  get : UInt32
  ne_zero : get ≠ 0

/-- `Batch`: its range and results. -/
structure Batch (T : Type) where
  range : HeightRange
  results : List T
  deriving DecidableEq, Repr

inductive CachedData (Header Block : Type)
  | header (data : Header)
  | block (data : Block)
  deriving DecidableEq, Repr

inductive CachedDataBatch (Header Block : Type)
  | headers (batch : Batch Header)
  | blocks (batch : Batch Block)
  | none (range : HeightRange)
  deriving DecidableEq, Repr

variable {Header Block : Type}

namespace CachedDataBatch

def range : CachedDataBatch Header Block → HeightRange
  | .headers batch | .blocks batch => batch.range
  | .none range => range

def isRangeEmpty (chunk : CachedDataBatch Header Block) : Bool :=
  chunk.range.isEmpty

end CachedDataBatch

/-- `Cache`: the entries of the map, in increasing order of their heights. -/
structure Cache (Header Block : Type) where
  entries : List (UInt32 × CachedData Header Block)
  ordered : entries.Pairwise fun earlier later => earlier.1 < later.1

namespace Cache

/-- `collect_cache_data`: the entries within the range, in order. -/
def collectCacheData (cache : Cache Header Block) (range : RangeInclusive) :
    List (UInt32 × CachedData Header Block) :=
  cache.entries.filter fun entry => range.contains entry.1

def single {T : Type} (height : UInt32) (data : T) : Batch T :=
  ⟨⟨height, height.saturatingAdd 1⟩, [data]⟩

def grow {T : Type} (batch : Batch T) (data : T) : Batch T :=
  ⟨⟨batch.range.start, batch.range.stop.saturatingAdd 1⟩, batch.results ++ [data]⟩

/-- `handle_current_chunk`: the chunk the data goes on with, and the chunks pushed. -/
def handleCurrentChunk (currentChunk : CachedDataBatch Header Block)
    (data : CachedData Header Block) (height : UInt32)
    (chunks : List (CachedDataBatch Header Block)) (maxChunkSize : NonZeroU32) :
    CachedDataBatch Header Block × List (CachedDataBatch Header Block) :=
  let maxChunkSize := maxChunkSize.get.toNat
  match currentChunk, data with
  | .none _, .header data => (.headers (single height data), chunks)
  | .none _, .block data => (.blocks (single height data), chunks)
  | .headers batch, .header data =>
      if batch.range.len = maxChunkSize then
        (.headers (single height data), chunks ++ [.headers batch])
      else (.headers (grow batch data), chunks)
  | .blocks batch, .block data =>
      if batch.range.len = maxChunkSize then
        (.blocks (single height data), chunks ++ [.blocks batch])
      else (.blocks (grow batch data), chunks)
  | .headers batch, .block block => (.blocks (single height block), chunks ++ [.headers batch])
  | .blocks batch, .header header => (.headers (single height header), chunks ++ [.blocks batch])

/-- `push_missing_chunks`: the heights from `currentHeight` below `height`, stepped by the
chunk size, each starting a range to fetch of the chunk size, cut at `stop`. -/
def pushMissingChunks (chunks : List (CachedDataBatch Header Block))
    (currentHeight height : UInt32) (maxChunkSize : NonZeroU32) (stop : UInt32) :
    List (CachedDataBatch Header Block) :=
  let chunkSize := maxChunkSize.get
  -- `(current_height..height).step_by(chunk_size)`
  let starts := List.range' currentHeight.toNat
    ((height.toNat - currentHeight.toNat + chunkSize.toNat - 1) / chunkSize.toNat) chunkSize.toNat
  chunks ++ starts.map fun chunkStart =>
    let chunkStart := chunkStart.toUInt32
    .none ⟨chunkStart, min (chunkStart.saturatingAdd chunkSize) stop⟩

/-- What `get_chunks` carries through its loop: the next height, the chunks pushed and the
chunk being built. -/
structure Cursor (Header Block : Type) where
  currentHeight : UInt32
  chunks : List (CachedDataBatch Header Block)
  currentChunk : CachedDataBatch Header Block

/-- The chunk built so far is pushed unless its range is empty. -/
def pushChunk (chunks : List (CachedDataBatch Header Block))
    (currentChunk : CachedDataBatch Header Block) : List (CachedDataBatch Header Block) :=
  if !currentChunk.isRangeEmpty then chunks ++ [currentChunk] else chunks

/-- Before the data at `height`: past a range missing from the cache, the chunk built so far
and the ranges to fetch are pushed and a new chunk starts. -/
def skipTo (maxChunkSize : NonZeroU32) (stop : UInt32) (cursor : Cursor Header Block)
    (height : UInt32) : List (CachedDataBatch Header Block) × CachedDataBatch Header Block :=
  if height ≠ cursor.currentHeight then
    (pushMissingChunks (pushChunk cursor.chunks cursor.currentChunk) cursor.currentHeight height
      maxChunkSize stop, .none ⟨0, 0⟩)
  else (cursor.chunks, cursor.currentChunk)

/-- One turn of the loop of `get_chunks` over the cached entries. -/
def visit (maxChunkSize : NonZeroU32) (stop : UInt32) (cursor : Cursor Header Block)
    (entry : UInt32 × CachedData Header Block) : Cursor Header Block :=
  let (height, data) := entry
  let (chunks, currentChunk) := skipTo maxChunkSize stop cursor height
  let (currentChunk, chunks) := handleCurrentChunk currentChunk data height chunks maxChunkSize
  ⟨height.saturatingAdd 1, chunks, currentChunk⟩

/-- `get_chunks`. -/
def getChunks (cache : Cache Header Block) (range : RangeInclusive)
    (maxChunkSize : NonZeroU32) : List (CachedDataBatch Header Block) :=
  let stop := range.stop.saturatingAdd 1
  let cursor := (cache.collectCacheData range).foldl (visit maxChunkSize stop)
    ⟨range.start, [], .none ⟨0, 0⟩⟩
  pushMissingChunks (pushChunk cursor.chunks cursor.currentChunk) cursor.currentHeight stop
    maxChunkSize stop

/-! ## Chunk sizes -/

variable (maxChunkSize : NonZeroU32)

theorem one_le_maxChunkSize : 1 ≤ maxChunkSize.get.toNat := by
  have := maxChunkSize.ne_zero
  rw [ne_eq, ← UInt32.toNat_inj] at this
  simp only [UInt32.toNat_zero] at this
  omega

/-- A chunk of at most `max_chunk_size` heights. -/
def Fits (chunk : CachedDataBatch Header Block) : Prop :=
  chunk.range.len ≤ maxChunkSize.get.toNat

theorem len_single {T : Type} (height : UInt32) (data : T) :
    (single height data).range.len ≤ 1 := by
  simp only [single, HeightRange.len, UInt32.toNat_saturatingAdd, UInt32.toNat_one]
  omega

theorem len_grow {T : Type} (batch : Batch T) (data : T) :
    (grow batch data).range.len ≤ batch.range.len + 1 := by
  simp only [grow, HeightRange.len, UInt32.toNat_saturatingAdd, UInt32.toNat_one]
  omega

theorem handleCurrentChunk_fits {currentChunk : CachedDataBatch Header Block}
    (fits : Fits maxChunkSize currentChunk) (data : CachedData Header Block) (height : UInt32)
    (chunks : List (CachedDataBatch Header Block)) :
    let next := handleCurrentChunk currentChunk data height chunks maxChunkSize
    Fits maxChunkSize next.1 ∧ ∀ chunk ∈ next.2, chunk ∈ chunks ∨ chunk = currentChunk := by
  have positive := one_le_maxChunkSize maxChunkSize
  have single_fits {T : Type} (data : T) : (single height data).range.len ≤
      maxChunkSize.get.toNat := (len_single height data).trans positive
  unfold Fits at fits ⊢
  cases currentChunk with
  | none range =>
      cases data <;> exact ⟨single_fits _, fun chunk member => .inl member⟩
  | headers batch =>
      cases data with
      | header data =>
          simp only [handleCurrentChunk]
          split_ifs with full
          · exact ⟨single_fits _, by simp⟩
          · refine ⟨(len_grow batch data).trans ?_, fun chunk member => .inl member⟩
            simp only [CachedDataBatch.range] at fits
            omega
      | block data => exact ⟨single_fits _, by simp [handleCurrentChunk]⟩
  | blocks batch =>
      cases data with
      | block data =>
          simp only [handleCurrentChunk]
          split_ifs with full
          · exact ⟨single_fits _, by simp⟩
          · refine ⟨(len_grow batch data).trans ?_, fun chunk member => .inl member⟩
            simp only [CachedDataBatch.range] at fits
            omega
      | header data => exact ⟨single_fits _, by simp [handleCurrentChunk]⟩

theorem pushMissingChunks_fits (chunks : List (CachedDataBatch Header Block))
    (currentHeight height stop : UInt32) :
    ∀ chunk ∈ pushMissingChunks chunks currentHeight height maxChunkSize stop,
      chunk ∈ chunks ∨ Fits maxChunkSize chunk := by
  intro chunk member
  simp only [pushMissingChunks, List.mem_append, List.mem_map] at member
  rcases member with old | ⟨chunkStart, -, rfl⟩
  · exact .inl old
  · right
    simp only [Fits, CachedDataBatch.range, HeightRange.len, UInt32.toNat_min,
      UInt32.toNat_saturatingAdd]
    omega

theorem mem_pushChunk {chunks : List (CachedDataBatch Header Block)}
    {currentChunk chunk : CachedDataBatch Header Block}
    (member : chunk ∈ pushChunk chunks currentChunk) : chunk ∈ chunks ∨ chunk = currentChunk := by
  unfold pushChunk at member
  split_ifs at member
  · simpa using member
  · exact .inl member

/-- The chunks of a cursor all fit, and so does the chunk it builds. -/
def Cursor.Fits (cursor : Cursor Header Block) : Prop :=
  (∀ chunk ∈ cursor.chunks, Cache.Fits maxChunkSize chunk) ∧
    Cache.Fits maxChunkSize cursor.currentChunk

theorem Cursor.Fits.pushMissingChunks {cursor : Cursor Header Block}
    (fits : cursor.Fits maxChunkSize) (height stop : UInt32) :
    ∀ chunk ∈ Cache.pushMissingChunks (pushChunk cursor.chunks cursor.currentChunk)
      cursor.currentHeight height maxChunkSize stop, Cache.Fits maxChunkSize chunk := by
  intro chunk member
  rcases pushMissingChunks_fits maxChunkSize _ _ _ _ chunk member with pushed | missing
  · rcases mem_pushChunk pushed with old | current
    · exact fits.1 chunk old
    · exact current ▸ fits.2
  · exact missing

theorem Cursor.Fits.skipTo {cursor : Cursor Header Block} (fits : cursor.Fits maxChunkSize)
    (stop height : UInt32) :
    let skipped := Cache.skipTo maxChunkSize stop cursor height
    (∀ chunk ∈ skipped.1, Cache.Fits maxChunkSize chunk) ∧ Cache.Fits maxChunkSize skipped.2 := by
  unfold Cache.skipTo
  split_ifs
  · exact ⟨fits.pushMissingChunks maxChunkSize height stop, Nat.zero_le _⟩
  · exact fits

theorem Cursor.Fits.visit {cursor : Cursor Header Block} (fits : cursor.Fits maxChunkSize)
    (stop : UInt32) (entry : UInt32 × CachedData Header Block) :
    (Cache.visit maxChunkSize stop cursor entry).Fits maxChunkSize := by
  obtain ⟨chunksFit, currentFits⟩ := fits.skipTo maxChunkSize stop entry.1
  obtain ⟨nextFits, kept⟩ := handleCurrentChunk_fits maxChunkSize currentFits entry.2 entry.1 _
  refine ⟨fun chunk member => ?_, nextFits⟩
  rcases kept chunk member with old | current
  · exact chunksFit chunk old
  · exact current ▸ currentFits

theorem Cursor.Fits.foldl {cursor : Cursor Header Block} (fits : cursor.Fits maxChunkSize)
    (stop : UInt32) (entries : List (UInt32 × CachedData Header Block)) :
    (entries.foldl (Cache.visit maxChunkSize stop) cursor).Fits maxChunkSize := by
  induction entries generalizing cursor with
  | nil => exact fits
  | cons entry entries induction => exact induction (fits.visit maxChunkSize stop entry)

/-- Every chunk `get_chunks` returns has at most `max_chunk_size` heights. -/
theorem getChunks_fits (cache : Cache Header Block) (range : RangeInclusive) :
    ∀ chunk ∈ cache.getChunks range maxChunkSize, Fits maxChunkSize chunk := by
  have start : (⟨range.start, [], .none ⟨0, 0⟩⟩ : Cursor Header Block).Fits maxChunkSize :=
    ⟨fun _ member => (List.not_mem_nil member).elim, Nat.zero_le _⟩
  exact (start.foldl maxChunkSize _ _).pushMissingChunks maxChunkSize _ _

theorem chunks_of_three_fit :
    (CachedDataBatch.blocks ⟨⟨5, 6⟩, [5]⟩ : CachedDataBatch ℕ ℕ) ∈
        (⟨[(5, .block 5)], by decide⟩ : Cache ℕ ℕ).getChunks ⟨0, 10⟩ ⟨3, by decide⟩ ∧
      Fits ⟨3, by decide⟩ (CachedDataBatch.blocks ⟨⟨5, 6⟩, [5]⟩ : CachedDataBatch ℕ ℕ) := by
  have member : (CachedDataBatch.blocks ⟨⟨5, 6⟩, [5]⟩ : CachedDataBatch ℕ ℕ) ∈
      (⟨[(5, .block 5)], by decide⟩ : Cache ℕ ℕ).getChunks ⟨0, 10⟩ ⟨3, by decide⟩ := by
    decide
  exact ⟨member, getChunks_fits ⟨3, by decide⟩ _ ⟨0, 10⟩ _ member⟩

/-! ## Ranges to fetch that reach a cached height

`push_missing_chunks` cuts the last range of a gap at the end of the request, not at the cached
height that closes the gap: when the gap is not a whole number of chunks, that range runs past
the cached height, which the cached chunk that follows then covers again. -/

theorem prefix_pushChunk (chunks : List (CachedDataBatch Header Block))
    (currentChunk : CachedDataBatch Header Block) : chunks <+: pushChunk chunks currentChunk := by
  unfold pushChunk
  split_ifs
  · exact List.prefix_append _ _
  · exact List.prefix_refl _

theorem prefix_handleCurrentChunk (currentChunk : CachedDataBatch Header Block)
    (data : CachedData Header Block) (height : UInt32)
    (chunks : List (CachedDataBatch Header Block)) :
    chunks <+: (handleCurrentChunk currentChunk data height chunks maxChunkSize).2 := by
  cases currentChunk <;> cases data <;> simp only [handleCurrentChunk] <;>
    (try split_ifs) <;> first | exact List.prefix_refl _ | exact List.prefix_append _ _

theorem prefix_visit (stop : UInt32) (cursor : Cursor Header Block)
    (entry : UInt32 × CachedData Header Block) :
    cursor.chunks <+: (visit maxChunkSize stop cursor entry).chunks := by
  have skipped : cursor.chunks <+: (skipTo maxChunkSize stop cursor entry.1).1 := by
    unfold skipTo
    split_ifs
    · exact (prefix_pushChunk _ _).trans (List.prefix_append _ _)
    · exact List.prefix_refl _
  exact skipped.trans (prefix_handleCurrentChunk maxChunkSize _ entry.2 entry.1 _)

theorem prefix_foldl_visit (stop : UInt32) (entries : List (UInt32 × CachedData Header Block))
    (cursor : Cursor Header Block) :
    cursor.chunks <+: (entries.foldl (visit maxChunkSize stop) cursor).chunks := by
  induction entries generalizing cursor with
  | nil => exact List.prefix_refl _
  | cons entry entries induction =>
      exact (prefix_visit maxChunkSize stop cursor entry).trans (induction _)

/-- The last start of `(current..height).step_by(size)` when the gap is not a whole number of
steps: it is below `height`, one more step passes `height`, and the step yields it. -/
theorem lastStart_bounds {current height size : ℕ} (positive : 1 ≤ size)
    (uneven : (height - current) % size ≠ 0) :
    current + size * ((height - current) / size) < height ∧
      height < current + size * ((height - current) / size) + size ∧
      (height - current) / size < (height - current + size - 1) / size := by
  have decomposed := Nat.div_add_mod (height - current) size
  have remainder := Nat.mod_lt (height - current) (show 0 < size by omega)
  refine ⟨by omega, by omega, ?_⟩
  rw [Nat.lt_div_iff_mul_lt (by omega), Nat.mul_comm]
  omega

theorem mem_pushMissingChunks_of_gap (chunks : List (CachedDataBatch Header Block))
    {currentHeight height stop : UInt32}
    (uneven : (height.toNat - currentHeight.toNat) % maxChunkSize.get.toNat ≠ 0)
    (beyond : height < stop) :
    ∃ range, .none range ∈ pushMissingChunks chunks currentHeight height maxChunkSize stop ∧
      range.start.toNat < height.toNat ∧ height.toNat < range.stop.toNat := by
  obtain ⟨lastBelow, pastHeight, counted⟩ :=
    lastStart_bounds (one_le_maxChunkSize maxChunkSize) uneven
  rw [UInt32.lt_iff_toNat_lt] at beyond
  have sizeEq : UInt32.size = 2 ^ 32 := rfl
  have fits := height.toNat_lt
  have stopFits := stop.toNat_lt
  let last := currentHeight.toNat +
    maxChunkSize.get.toNat * ((height.toNat - currentHeight.toNat) / maxChunkSize.get.toNat)
  have lastToNat : last.toUInt32.toNat = last := by
    simp only [Nat.toUInt32, UInt32.toNat_ofNat']
    omega
  refine ⟨⟨last.toUInt32, min (last.toUInt32.saturatingAdd maxChunkSize.get) stop⟩, ?_, ?_, ?_⟩
  · simp only [pushMissingChunks, List.mem_append, List.mem_map, List.mem_range']
    exact .inr ⟨last, ⟨_, counted, rfl⟩, rfl⟩
  · rw [lastToNat]
    exact lastBelow
  · simp only [UInt32.toNat_min, UInt32.toNat_saturatingAdd, lastToNat]
    omega

/-- When the first cached height of the request lies past its start by a gap that is not a
whole number of chunks, and below its end, `get_chunks` asks to fetch that cached height. -/
theorem getChunks_fetches_cached_height (cache : Cache Header Block) (range : RangeInclusive)
    {height : UInt32} {data : CachedData Header Block}
    {rest : List (UInt32 × CachedData Header Block)}
    (first : cache.collectCacheData range = (height, data) :: rest)
    (past : range.start < height)
    (uneven : (height.toNat - range.start.toNat) % maxChunkSize.get.toNat ≠ 0)
    (below : height < range.stop) :
    ∃ fetched, .none fetched ∈ cache.getChunks range maxChunkSize ∧
      fetched.start.toNat < height.toNat ∧ height.toNat < fetched.stop.toNat := by
  let stop := range.stop.saturatingAdd 1
  have beyond : height < stop := by
    rw [UInt32.lt_iff_toNat_lt] at below ⊢
    simp only [stop, UInt32.toNat_saturatingAdd, UInt32.toNat_one]
    have := range.stop.toNat_lt
    have sizeEq : UInt32.size = 2 ^ 32 := rfl
    omega
  obtain ⟨fetched, missing, starts, ends⟩ :=
    mem_pushMissingChunks_of_gap maxChunkSize [] uneven beyond
  have firstTurn : (visit maxChunkSize stop ⟨range.start, [], .none ⟨0, 0⟩⟩ (height, data)).chunks =
      pushMissingChunks [] range.start height maxChunkSize stop := by
    have skipped : height ≠ range.start := by
      intro same
      rw [same, UInt32.lt_iff_toNat_lt] at past
      omega
    cases data <;> simp [visit, skipTo, skipped, pushChunk, CachedDataBatch.isRangeEmpty,
      CachedDataBatch.range, HeightRange.isEmpty, handleCurrentChunk]
  refine ⟨fetched, ?_, starts, ends⟩
  have kept := prefix_foldl_visit maxChunkSize stop rest
    (visit maxChunkSize stop ⟨range.start, [], .none ⟨0, 0⟩⟩ (height, data))
  rw [firstTurn] at kept
  simp only [getChunks, first, List.foldl_cons]
  exact ((kept.trans (prefix_pushChunk _ _)).trans (List.prefix_append _ _)).subset missing

/-- Block 5 cached and a request for heights 0 to 10 in chunks of three: a range to fetch runs
past height 5. -/
theorem cached_block_five_is_fetched_again :
    ∃ fetched, .none fetched ∈ (⟨[(5, .block 5)], by decide⟩ : Cache ℕ ℕ).getChunks ⟨0, 10⟩
        ⟨3, by decide⟩ ∧ fetched.start.toNat < 5 ∧ 5 < fetched.stop.toNat :=
  getChunks_fetches_cached_height ⟨3, by decide⟩ ⟨[(5, .block 5)], by decide⟩ ⟨0, 10⟩
    (rfl : _ = [((5 : UInt32), (.block 5 : CachedData ℕ ℕ))]) (by decide) (by decide) (by decide)

end Cache

/-- A cache holding block 5 alone. -/
def blockFive : Cache ℕ ℕ :=
  ⟨[(5, .block 5)], by decide⟩

def emptyCache : Cache ℕ ℕ :=
  ⟨[], List.Pairwise.nil⟩

def chunksOfThree : NonZeroU32 :=
  ⟨3, by decide⟩

theorem get_chunks_overlaps_cached_block_and_drops_last_height :
    blockFive.getChunks ⟨0, 10⟩ chunksOfThree =
        [.none ⟨0, 3⟩, .none ⟨3, 6⟩, .blocks ⟨⟨5, 6⟩, [5]⟩, .none ⟨6, 9⟩, .none ⟨9, 11⟩] ∧
      emptyCache.getChunks ⟨4294967294, 4294967295⟩ chunksOfThree =
        [.none ⟨4294967294, 4294967295⟩] := by
  decide

end FuelCore.Sync
