import FuelCore.Lib.OrderedKeys
import Mathlib.Data.Prod.Lex

/-! # The key of the coins-to-spend index

`graphql_api/storage/coins.rs` declares `CoinsToSpendIndexKey`, the key of the index the
coin selection of `coins_query.rs` iterates over, and `storage/coins/codecs.rs` writes it as
`Manual<CoinsToSpendIndexKey>`:

* a coin as `retryable_flag | owner | asset_id | amount | utxo_id | 0`, with the flag fixed
  to `NON_RETRYABLE_BYTE`, and
* a message as `retryable_flag | owner | asset_id | amount | nonce | 1`.

The amount is big-endian, so the first 73 bytes of both layouts sort as the tuple
`(retryable_flag, owner, asset_id, amount)` does. The encoder fills a zeroed array by
running `start`/`end` offsets, the decoder dispatches on the last byte and reads the fields
back at the same offsets. Fixed-size arrays `[u8; n]` are `Bytes n`, lists of bytes that
carry their length; `try_from` of a slice into one fails on any other length.
-/

namespace FuelCore.GraphqlApi

open ByteOrder

/-- A fixed-size byte array `[u8; n]`. Its derived order is that of its bytes. -/
@[ext] structure Bytes (n : ℕ) where
  toList : List UInt8
  length_eq : toList.length = n
  deriving DecidableEq

/-- `zeroed()`: the array of zero bytes. -/
def Bytes.zeroed (n : ℕ) : Bytes n :=
  ⟨List.replicate n 0, List.length_replicate ..⟩

abbrev Address := Bytes 32
abbrev AssetId := Bytes 32
abbrev TxId := Bytes 32
abbrev Nonce := Bytes 32

structure UtxoId where
  txId : TxId
  outputIndex : UInt16
  deriving DecidableEq

inductive CoinsToSpendIndexKey
  | coin (owner : Address) (assetId : AssetId) (amount : UInt64) (utxoId : UtxoId)
  | message (retryableFlag : UInt8) (owner : Address) (assetId : AssetId) (amount : UInt64)
      (nonce : Nonce)
  deriving DecidableEq

/-- What the decoder can fail with: an unknown last byte (`"Invalid coin type {:?}"`), or
a slice whose length is not the array's (`TryFromSliceError`). -/
inductive DecodeError
  | invalidCoinType (last : Option UInt8)
  | tryFromSlice
  deriving DecidableEq

/-- `RETRYABLE_BYTE` and `NON_RETRYABLE_BYTE` of `indexation/coins_to_spend.rs`. -/
def retryableByte : UInt8 := 0x00
def nonRetryableByte : UInt8 := 0x01

/-- `CoinType`, written as its `u8` discriminant in the last byte. -/
inductive CoinType
  | coin
  | message
  deriving DecidableEq

def CoinType.toByte : CoinType → UInt8
  | .coin => 0
  | .message => 1

def addressLen : ℕ := 32
def assetIdLen : ℕ := 32
def txIdLen : ℕ := 32
def nonceLen : ℕ := 32
def amountSize : ℕ := 8
/-- `size_of::<UtxoId>()`: a 32-byte id and a `u16`, with no padding. -/
def utxoIdSize : ℕ := txIdLen + 2
def retryableFlagSize : ℕ := 1
def coinTypeSize : ℕ := 1

def coinVariantSize : ℕ :=
  retryableFlagSize + addressLen + assetIdLen + amountSize + utxoIdSize + coinTypeSize

def messageVariantSize : ℕ :=
  retryableFlagSize + addressLen + assetIdLen + amountSize + nonceLen + coinTypeSize

namespace CoinsToSpendIndexKey

def owner : CoinsToSpendIndexKey → Address
  | .coin owner .. => owner
  | .message _ owner .. => owner

def assetId : CoinsToSpendIndexKey → AssetId
  | .coin _ assetId .. => assetId
  | .message _ _ assetId .. => assetId

/-- A coin is never retryable; its key still carries the flag, for the order. -/
def retryableFlag : CoinsToSpendIndexKey → UInt8
  | .coin .. => nonRetryableByte
  | .message retryableFlag .. => retryableFlag

def amount : CoinsToSpendIndexKey → UInt64
  | .coin _ _ amount _ => amount
  | .message _ _ _ amount _ => amount

end CoinsToSpendIndexKey

/-! ## The encoder -/

/-- `serialized[start..end].copy_from_slice(src)`; every call of the codec copies a source
of the slice's length. -/
def copyFromSlice (serialized : List UInt8) (start stop : ℕ) (src : List UInt8) :
    List UInt8 :=
  serialized.take start ++ src ++ serialized.drop stop

/-- `u64::to_be_bytes`. -/
def u64ToBeBytes (value : UInt64) : Bytes 8 :=
  ⟨toBeBytes 8 value.toNat, length_toBeBytes ..⟩

/-- `u16::to_be_bytes`. -/
def u16ToBeBytes (value : UInt16) : Bytes 2 :=
  ⟨toBeBytes 2 value.toNat, length_toBeBytes ..⟩

/-- `utxo_id_to_bytes`: the transaction id, then the output index big-endian. -/
def utxoIdToBytes (utxoId : UtxoId) : List UInt8 :=
  let default := List.replicate (txIdLen + 2) 0
  let default := copyFromSlice default 0 txIdLen utxoId.txId.toList
  copyFromSlice default txIdLen (txIdLen + 2) (u16ToBeBytes utxoId.outputIndex).toList

/-- One field of the encoder: `start = end; end = end.saturating_add(LEN);
serialized[start..end].copy_from_slice(field)`. A `usize` never saturates at these sizes. -/
def copyField (serialized : List UInt8 × ℕ) (field : List UInt8) : List UInt8 × ℕ :=
  let start := serialized.2
  let stop := start + field.length
  (copyFromSlice serialized.1 start stop field, stop)

/-- What both arms of the encoder do: a zeroed array of the variant's size, the flag at 0,
the fields one after another, and the coin type at the offset the last field ends at. -/
def serializeKey (variantSize : ℕ) (retryableFlag : UInt8) (fields : List (List UInt8))
    (coinType : CoinType) : List UInt8 :=
  let serialized := (List.replicate variantSize 0).set 0 retryableFlag
  let (serialized, start) := fields.foldl copyField (serialized, retryableFlagSize)
  serialized.set start coinType.toByte

/-- `Encode<CoinsToSpendIndexKey> for Manual<CoinsToSpendIndexKey>`. -/
def encode : CoinsToSpendIndexKey → List UInt8
  | .coin owner assetId amount utxoId =>
      serializeKey coinVariantSize nonRetryableByte
        [owner.toList, assetId.toList, (u64ToBeBytes amount).toList, utxoIdToBytes utxoId]
        .coin
  | .message retryableFlag owner assetId amount nonce =>
      serializeKey messageVariantSize retryableFlag
        [owner.toList, assetId.toList, (u64ToBeBytes amount).toList, nonce.toList]
        .message

/-! ## The decoder -/

/-- `<[u8; n]>::try_from(slice)`. -/
def Bytes.tryFrom (slice : List UInt8) : Except DecodeError (Bytes n) :=
  if h : slice.length = n then .ok ⟨slice, h⟩ else .error .tryFromSlice

/-- `bytes[start..end]`; the decoder slices only inside an array of known size. -/
def slice (bytes : List UInt8) (start stop : ℕ) : List UInt8 :=
  (bytes.drop start).take (stop - start)

def u64FromBeBytes (bytes : Bytes 8) : UInt64 :=
  (fromBeBytes bytes.toList).toUInt64

def u16FromBeBytes (bytes : Bytes 2) : UInt16 :=
  (fromBeBytes bytes.toList).toUInt16

/-- The coin arm of `decode`: the flag byte is skipped. -/
def decodeCoin (bytes : List UInt8) : Except DecodeError CoinsToSpendIndexKey := do
  let bytes : Bytes coinVariantSize ← Bytes.tryFrom bytes
  let bytes := bytes.toList
  let stop := retryableFlagSize
  let start := stop
  let stop := stop + addressLen
  let owner ← Bytes.tryFrom (slice bytes start stop)
  let start := stop
  let stop := stop + assetIdLen
  let assetId ← Bytes.tryFrom (slice bytes start stop)
  let start := stop
  let stop := stop + amountSize
  let amount := u64FromBeBytes (← Bytes.tryFrom (slice bytes start stop))
  let start := stop
  let stop := stop + utxoIdSize
  let (txIdBytes, outputIndexBytes) := (slice bytes start stop).splitAt txIdLen
  let txId ← Bytes.tryFrom txIdBytes
  let outputIndex := u16FromBeBytes (← Bytes.tryFrom outputIndexBytes)
  pure (.coin owner assetId amount ⟨txId, outputIndex⟩)

/-- The message arm of `decode`; the flag is the first byte of a one-byte slice. -/
def decodeMessage (bytes : List UInt8) : Except DecodeError CoinsToSpendIndexKey := do
  let bytes : Bytes messageVariantSize ← Bytes.tryFrom bytes
  let bytes := bytes.toList
  let start := 0
  let stop := retryableFlagSize
  let retryableFlag := (slice bytes start stop).headD 0
  let start := stop
  let stop := stop + addressLen
  let owner ← Bytes.tryFrom (slice bytes start stop)
  let start := stop
  let stop := stop + assetIdLen
  let assetId ← Bytes.tryFrom (slice bytes start stop)
  let start := stop
  let stop := stop + amountSize
  let amount := u64FromBeBytes (← Bytes.tryFrom (slice bytes start stop))
  let start := stop
  let stop := stop + nonceLen
  let nonce ← Bytes.tryFrom (slice bytes start stop)
  pure (.message retryableFlag owner assetId amount nonce)

/-- `Decode<CoinsToSpendIndexKey> for Manual<CoinsToSpendIndexKey>`: the last byte names
the variant. -/
def decode (bytes : List UInt8) : Except DecodeError CoinsToSpendIndexKey :=
  match bytes.getLast? with
  | some 0 => decodeCoin bytes
  | some 1 => decodeMessage bytes
  | last => .error (.invalidCoinType last)

/-! ## The layout the offsets produce -/

@[simp] theorem Bytes.mk_toList {n : ℕ} (bytes : Bytes n) (h : bytes.toList.length = n) :
    Bytes.mk bytes.toList h = bytes := rfl

theorem copyFromSlice_after (pre old post src : List UInt8) (fits : src.length ≤ old.length) :
    copyFromSlice (pre ++ old ++ post) pre.length (pre.length + src.length) src =
      pre ++ src ++ (old.drop src.length ++ post) := by
  simp [copyFromSlice, List.drop_append_of_le_length fits]

theorem foldl_copyField (fields : List (List UInt8)) (pre old post : List UInt8) (start : ℕ)
    (atPre : start = pre.length) (sameLength : old.length = (fields.map List.length).sum) :
    fields.foldl copyField (pre ++ old ++ post, start) =
      (pre ++ fields.flatten ++ post, pre.length + old.length) := by
  induction fields generalizing pre old start with
  | nil =>
      rw [List.length_eq_zero_iff.mp sameLength, atPre]
      simp
  | cons field fields induction =>
      simp only [List.map_cons, List.sum_cons] at sameLength
      have written : copyField (pre ++ old ++ post, start) field =
          ((pre ++ field) ++ old.drop field.length ++ post, (pre ++ field).length) := by
        rw [copyField, atPre, copyFromSlice_after _ _ _ _ (by omega)]
        simp
      rw [List.foldl_cons, written, induction _ _ _ rfl (by simp; omega)]
      simp
      omega

theorem serializeKey_eq (variantSize : ℕ) (retryableFlag : UInt8) (fields : List (List UInt8))
    (coinType : CoinType)
    (sized : variantSize = retryableFlagSize + (fields.map List.length).sum + coinTypeSize) :
    serializeKey variantSize retryableFlag fields coinType =
      retryableFlag :: fields.flatten ++ [coinType.toByte] := by
  have zeroed : (List.replicate variantSize (0 : UInt8)).set 0 retryableFlag =
      [retryableFlag] ++ List.replicate (fields.map List.length).sum 0 ++ [0] := by
    rw [sized, retryableFlagSize, coinTypeSize, Nat.add_comm 1, List.replicate_succ,
      List.replicate_add]
    simp
  have flatLength : fields.flatten.length = (fields.map List.length).sum := List.length_flatten
  simp only [serializeKey]
  rw [zeroed, foldl_copyField fields [retryableFlag] _ [0] retryableFlagSize rfl
    (List.length_replicate ..)]
  simp [Nat.add_comm 1, flatLength]

theorem utxoIdToBytes_eq (utxoId : UtxoId) :
    utxoIdToBytes utxoId = utxoId.txId.toList ++ (u16ToBeBytes utxoId.outputIndex).toList := by
  simp [utxoIdToBytes, copyFromSlice, txIdLen, utxoId.txId.length_eq, u16ToBeBytes]

/-- The bytes the order of the index is decided on: the flag, the owner, the asset id and
the big-endian amount. -/
def keyPrefix (key : CoinsToSpendIndexKey) : List UInt8 :=
  key.retryableFlag :: (key.owner.toList ++ key.assetId.toList ++ (u64ToBeBytes key.amount).toList)

/-- What follows the prefix: the coin's `UtxoId` or the message's nonce, then the coin type. -/
def keySuffix : CoinsToSpendIndexKey → List UInt8
  | .coin _ _ _ utxoId => utxoIdToBytes utxoId ++ [CoinType.coin.toByte]
  | .message _ _ _ _ nonce => nonce.toList ++ [CoinType.message.toByte]

@[simp] theorem length_keyPrefix (key : CoinsToSpendIndexKey) : (keyPrefix key).length = 73 := by
  simp [keyPrefix, Bytes.length_eq]

theorem encode_eq (key : CoinsToSpendIndexKey) : encode key = keyPrefix key ++ keySuffix key := by
  cases key with
  | coin owner assetId amount utxoId =>
      rw [encode, serializeKey_eq _ _ _ _ (by simp [utxoIdToBytes_eq, Bytes.length_eq,
        coinVariantSize, retryableFlagSize, addressLen, assetIdLen, amountSize, utxoIdSize,
        txIdLen, coinTypeSize])]
      simp [keyPrefix, keySuffix, CoinsToSpendIndexKey.retryableFlag, CoinsToSpendIndexKey.owner,
        CoinsToSpendIndexKey.assetId, CoinsToSpendIndexKey.amount]
  | message retryableFlag owner assetId amount nonce =>
      rw [encode, serializeKey_eq _ _ _ _ (by simp [Bytes.length_eq, messageVariantSize,
        retryableFlagSize, addressLen, assetIdLen, amountSize, nonceLen, coinTypeSize])]
      simp [keyPrefix, keySuffix, CoinsToSpendIndexKey.retryableFlag, CoinsToSpendIndexKey.owner,
        CoinsToSpendIndexKey.assetId, CoinsToSpendIndexKey.amount]

/-! ## Reading the fields back -/

theorem u64FromBeBytes_u64ToBeBytes (value : UInt64) : u64FromBeBytes (u64ToBeBytes value) = value := by
  simp [u64FromBeBytes, u64ToBeBytes, fromBeBytes_toBeBytes]

theorem u16FromBeBytes_u16ToBeBytes (value : UInt16) : u16FromBeBytes (u16ToBeBytes value) = value := by
  simp [u16FromBeBytes, u16ToBeBytes, fromBeBytes_toBeBytes]

theorem decodeCoin_fields (flag coinType : UInt8) (owner assetId txId : Bytes 32)
    (amount : Bytes 8) (outputIndex : Bytes 2) :
    decodeCoin (flag :: (owner.toList ++ assetId.toList ++ amount.toList ++ txId.toList ++
        outputIndex.toList) ++ [coinType]) =
      .ok (.coin owner assetId (u64FromBeBytes amount) ⟨txId, u16FromBeBytes outputIndex⟩) := by
  simp [decodeCoin, Bytes.tryFrom, slice, coinVariantSize, retryableFlagSize, addressLen,
    assetIdLen, amountSize, utxoIdSize, txIdLen, coinTypeSize, Bytes.length_eq, Bind.bind,
    Except.bind, Pure.pure, Except.pure, List.drop_append, List.take_append,
    List.drop_eq_nil_of_le, List.take_of_length_le]

theorem decodeMessage_fields (flag coinType : UInt8) (owner assetId nonce : Bytes 32)
    (amount : Bytes 8) :
    decodeMessage (flag :: (owner.toList ++ assetId.toList ++ amount.toList ++ nonce.toList) ++
        [coinType]) =
      .ok (.message flag owner assetId (u64FromBeBytes amount) nonce) := by
  simp [decodeMessage, Bytes.tryFrom, slice, messageVariantSize, retryableFlagSize, addressLen,
    assetIdLen, amountSize, nonceLen, coinTypeSize, Bytes.length_eq, Bind.bind,
    Except.bind, Pure.pure, Except.pure, List.drop_append, List.take_append,
    List.drop_eq_nil_of_le]

theorem decode_encode (key : CoinsToSpendIndexKey) : decode (encode key) = .ok key := by
  cases key with
  | coin owner assetId amount utxoId =>
      have layout : encode (.coin owner assetId amount utxoId) =
          nonRetryableByte :: (owner.toList ++ assetId.toList ++ (u64ToBeBytes amount).toList ++
            utxoId.txId.toList ++ (u16ToBeBytes utxoId.outputIndex).toList) ++
            [CoinType.coin.toByte] := by
        simp [encode_eq, keyPrefix, keySuffix, utxoIdToBytes_eq, CoinsToSpendIndexKey.retryableFlag,
          CoinsToSpendIndexKey.owner, CoinsToSpendIndexKey.assetId, CoinsToSpendIndexKey.amount]
      rw [layout, decode, List.getLast?_append_of_ne_nil _ (by simp)]
      simp only [List.getLast?_singleton, CoinType.toByte]
      rw [decodeCoin_fields, u64FromBeBytes_u64ToBeBytes, u16FromBeBytes_u16ToBeBytes]
  | message retryableFlag owner assetId amount nonce =>
      have layout : encode (.message retryableFlag owner assetId amount nonce) =
          retryableFlag :: (owner.toList ++ assetId.toList ++ (u64ToBeBytes amount).toList ++
            nonce.toList) ++ [CoinType.message.toByte] := by
        simp [encode_eq, keyPrefix, keySuffix, CoinsToSpendIndexKey.retryableFlag,
          CoinsToSpendIndexKey.owner, CoinsToSpendIndexKey.assetId, CoinsToSpendIndexKey.amount]
      rw [layout, decode, List.getLast?_append_of_ne_nil _ (by simp)]
      simp only [List.getLast?_singleton, CoinType.toByte]
      rw [decodeMessage_fields, u64FromBeBytes_u64ToBeBytes]

theorem encode_injective : Function.Injective encode := by
  intro key key' same
  have decoded : (Except.ok key : Except DecodeError _) = .ok key' := by
    rw [← decode_encode, same, decode_encode]
  cases decoded
  rfl

/-! ## The order of the keys -/

/-- What the derived order of a key compares first: `(retryable_flag, owner, asset_id,
amount)`, lexicographically, with arrays compared by their bytes. -/
def orderFields (key : CoinsToSpendIndexKey) : UInt8 ×ₗ List UInt8 ×ₗ List UInt8 ×ₗ UInt64 :=
  toLex (key.retryableFlag, toLex (key.owner.toList, toLex (key.assetId.toList, key.amount)))

theorem keyPrefix_lt_keyPrefix {key key' : CoinsToSpendIndexKey}
    (less : orderFields key < orderFields key') : keyPrefix key < keyPrefix key' := by
  simp only [orderFields, Prod.Lex.toLex_lt_toLex] at less
  have ownerLength : key.owner.toList.length = key'.owner.toList.length := by simp [Bytes.length_eq]
  have assetIdLength : key.assetId.toList.length = key'.assetId.toList.length := by
    simp [Bytes.length_eq]
  rw [keyPrefix, keyPrefix, List.cons_lt_cons_iff, List.append_assoc, List.append_assoc]
  -- the flag decides first, then the owner, the asset id and the amount
  rcases less with flag | ⟨sameFlag, owner | ⟨sameOwner, assetId | ⟨sameAssetId, amount⟩⟩⟩
  · exact .inl flag
  · exact .inr ⟨sameFlag, List.append_lt_append_of_lt ownerLength owner _ _⟩
  · refine .inr ⟨sameFlag, ?_⟩
    rw [sameOwner, List.append_lt_append_left_iff]
    exact List.append_lt_append_of_lt assetIdLength assetId _ _
  · refine .inr ⟨sameFlag, ?_⟩
    rw [sameOwner, sameAssetId, List.append_lt_append_left_iff, List.append_lt_append_left_iff]
    exact (toBeBytes_lt_iff 8 key.amount.toNat_lt key'.amount.toNat_lt).mpr
      (UInt64.lt_iff_toNat_lt.mp amount)

theorem encode_lt_encode {key key' : CoinsToSpendIndexKey}
    (less : orderFields key < orderFields key') : encode key < encode key' := by
  rw [encode_eq, encode_eq]
  exact List.append_lt_append_of_lt (by simp) (keyPrefix_lt_keyPrefix less) _ _

theorem amount_le_of_encode_lt {key key' : CoinsToSpendIndexKey}
    (sameFlag : key.retryableFlag = key'.retryableFlag) (sameOwner : key.owner = key'.owner)
    (sameAssetId : key.assetId = key'.assetId) (below : encode key' < encode key) :
    key'.amount.toNat ≤ key.amount.toNat := by
  apply Nat.le_of_not_lt
  intro more
  have ordered : orderFields key < orderFields key' := by
    simp only [orderFields, Prod.Lex.toLex_lt_toLex]
    exact .inr ⟨sameFlag, .inr ⟨congrArg Bytes.toList sameOwner,
      .inr ⟨congrArg Bytes.toList sameAssetId, UInt64.lt_iff_toNat_lt.mpr more⟩⟩⟩
  exact List.lt_irrefl _ (List.lt_trans (encode_lt_encode ordered) below)

theorem coins_to_spend_key_round_trips_and_orders :
    (∀ key, decode (encode key) = .ok key) ∧ Function.Injective encode ∧
      ∀ key key', orderFields key < orderFields key' → encode key < encode key' :=
  ⟨decode_encode, encode_injective, fun _ _ => encode_lt_encode⟩

end FuelCore.GraphqlApi
